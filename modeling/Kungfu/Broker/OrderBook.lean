import Kungfu.Broker.Levels
import Kungfu.Logic.Binary64
import Kungfu.Logic.Run

/-!
# The simulated order book

An order is put on its side of the book, into the level at its rounded price, and then the best levels
of both sides trade as long as they cross.  Every trade is at the price of the offer, also where the
offer is the order that came.  What a level takes in is limited when an order is merged into it,
which takes from a level that holds more.
-/

namespace Kungfu.Broker.Sim

inductive Side
  | Buy | Sell
  deriving DecidableEq, Repr

def Side.other : Side → Side
  | .Buy => .Sell
  | .Sell => .Buy

structure Order where
  secid : String
  side : Side
  price : ℚ
  qty : Int64

structure Trade where
  price : ℚ
  qty : Int64
  aggressor : Side
  deriving DecidableEq, Repr

structure OrderBook where
  bids : Levels
  offers : Levels
  security : String
  lastPrice : ℚ

/-- `MAX_DEPTH`. -/
def maxDepth : ℕ := 20

/-- `MAX_LEVEL_QTY`. -/
def maxLevelQty : Int64 := 2000

/-- `std::round`, which rounds half away from zero. -/
def roundHalfAway (x : ℚ) : ℤ := if 0 ≤ x then ⌊x + 1 / 2⌋ else ⌈x - 1 / 2⌉

/-- `round_price`, to two decimals.  The product and the quotient are doubles. -/
def roundPrice (price : ℚ) : ℚ :=
  Logic.Binary64.round (roundHalfAway (Logic.Binary64.round (price * 100)) / 100)

/-! ## Matching -/

/-- The two levels that trade. -/
structure Fill where
  bid : OrderBookLevel
  offer : OrderBookLevel
  deriving DecidableEq, Repr

namespace Fill

/-- What is traded: all of one of the levels. -/
def qty (fill : Fill) : Int64 :=
  if fill.offer.qty < fill.bid.qty then fill.offer.qty else fill.bid.qty

/-- The trade, which is the same in both loops up to its aggressor. -/
def trade (aggressor : Side) (fill : Fill) : Trade := ⟨fill.offer.price, fill.qty, aggressor⟩

/-- The price of the level that was resting. -/
def restingPrice (aggressor : Side) (fill : Fill) : ℚ :=
  match aggressor with
  | .Buy => fill.offer.price
  | .Sell => fill.bid.price

end Fill

namespace OrderBook

/-- The levels of a side. -/
def side (book : OrderBook) : Side → Levels
  | .Buy => book.bids
  | .Sell => book.offers

def setSide (book : OrderBook) (s : Side) (levels : Levels) : OrderBook :=
  match s with
  | .Buy => { book with bids := levels }
  | .Sell => { book with offers := levels }

/-- What a trade takes from both sides. -/
def fill (book : OrderBook) (fill : Fill) : OrderBook :=
  { book with
    bids := book.bids.take fill.bid fill.qty
    offers := book.offers.take fill.offer fill.qty
    lastPrice := fill.offer.price }

/-- The best levels, if they cross. -/
def crossing (book : OrderBook) : Option Fill :=
  match book.bids.toList.getLast?, book.offers.toList.head? with
  | some bid, some offer => if offer.price ≤ bid.price then some ⟨bid, offer⟩ else none
  | _, _ => none

/-- The loops of `match`, up to a number of rounds. -/
def matchLoop : ℕ → OrderBook → List Fill × OrderBook
  | 0, book => ([], book)
  | n + 1, book =>
      match book.crossing with
      | none => ([], book)
      | some fill =>
          let (fills, book) := matchLoop n (book.fill fill)
          (fill :: fills, book)

/-- `match`: every round takes a level away. -/
def matchOrders (book : OrderBook) : List Fill × OrderBook :=
  matchLoop (book.bids.toList.length + book.offers.toList.length) book

/-! ## Orders -/

/-- A level that an order is merged into. -/
def merge (level : OrderBookLevel) (qty : Int64) : OrderBookLevel :=
  { level with
    qty := if maxLevelQty < level.qty + qty then maxLevelQty else level.qty + qty
    orderCount := level.orderCount + 1 }

/-- An order is put into the level at its price. -/
def putOrder (levels : Levels) (price : ℚ) (qty : Int64) : Levels :=
  match levels.find? price with
  | none => levels.insert ⟨price, qty, 1⟩
  | some level => (levels.erase price).insert (merge level qty)

/-- The worst level goes if there are too many. -/
def evict (s : Side) (levels : Levels) : Levels :=
  if maxDepth < levels.toList.length then
    match s with
    | .Sell => levels.eraseLast
    | .Buy => levels.eraseFirst
  else levels

/-- The book before it is matched. -/
def withOrder (book : OrderBook) (o : Order) : OrderBook :=
  book.setSide o.side (evict o.side (putOrder (book.side o.side) (roundPrice o.price) o.qty))

/-- `order`.  The trades that it returns are those of the fills. -/
def order (book : OrderBook) (o : Order) : Except String (List Fill × OrderBook) :=
  if book.security ≠ o.secid then
    .error ("Cannot place order for security " ++ o.secid ++ " on book[" ++ book.security ++ "]")
  else .ok (book.withOrder o).matchOrders

/-- A book for a security. -/
def empty (security : String) : OrderBook := ⟨∅, ∅, security, 0⟩

/-! ## What an order should do -/

/-- The quantity on both sides. -/
def total (book : OrderBook) : ℤ := book.bids.total + book.offers.total

/-- The quantity that is refused when an order is merged. -/
def refused (book : OrderBook) (o : Order) : ℤ :=
  match (book.side o.side).find? (roundPrice o.price) with
  | none => 0
  | some level => level.qty.toInt + o.qty.toInt - (merge level o.qty).qty.toInt

/-- The level that goes because there are too many. -/
def worst (s : Side) (levels : Levels) : Option OrderBookLevel :=
  if maxDepth < levels.toList.length then
    match s with
    | .Sell => levels.toList.getLast?
    | .Buy => levels.toList.head?
  else none

/-- The quantity of the level that goes. -/
def evicted (book : OrderBook) (o : Order) : ℤ :=
  ((worst o.side (putOrder (book.side o.side) (roundPrice o.price) o.qty)).map
    (·.qty.toInt)).getD 0

end OrderBook

/-- The quantity that is traded. -/
def traded (fills : List Fill) : ℤ := (fills.map fun fill => fill.qty.toInt).sum

/-- Every level has a positive quantity, neither side has too many levels, and every bid is below every
offer. -/
structure Sane (book : OrderBook) : Prop where
  bids : book.bids.Positive
  offers : book.offers.Positive
  bidsDepth : book.bids.toList.length ≤ maxDepth
  offersDepth : book.offers.toList.length ≤ maxDepth
  uncrossed : ∀ bid ∈ book.bids, ∀ offer ∈ book.offers, bid.price < offer.price

/-- An order leaves a sane book, trades at the prices of what was resting, takes nothing from the
level that it is put into but by trading, and accounts for all quantities. -/
structure Fair (book : OrderBook) (o : Order) (fills : List Fill) (book' : OrderBook) : Prop where
  sane : Sane book'
  price : ∀ fill ∈ fills, (fill.trade o.side).price = fill.restingPrice o.side
  kept : (book.side o.side).qtyAt (roundPrice o.price) ≤
    (book'.side o.side).qtyAt (roundPrice o.price) + traded fills
  conserved : o.qty.toInt + book.total =
    book'.total + 2 * traded fills + book.refused o + book.evicted o

/-- An order to sell is not below a bid, and the level that an order is merged into holds no more than
the limit, so that the sum does not overflow. -/
structure Safe (book : OrderBook) (o : Order) : Prop where
  price : o.side = .Sell → ∀ bid ∈ book.bids, bid.price ≤ roundPrice o.price
  qty : ∀ level ∈ (book.side o.side).find? (roundPrice o.price),
    level.qty.toInt ≤ maxLevelQty.toInt ∧ level.qty.toInt + o.qty.toInt < 2 ^ 63

/-! ## The loops -/

variable {book book' book₁ : OrderBook} {fill : Fill} {fills fills' : List Fill} {o : Order}

theorem Fill.toInt_qty (fill : Fill) :
    fill.qty.toInt = min fill.bid.qty.toInt fill.offer.qty.toInt := by
  unfold Fill.qty
  split
  · rename_i hlt
    rw [Int64.lt_iff_toInt_lt] at hlt
    omega
  · rename_i hlt
    rw [Int64.lt_iff_toInt_lt] at hlt
    omega

/-- What the loops do to a book. -/
structure Matched (book : OrderBook) (fills : List Fill) (book' : OrderBook) : Prop where
  bids : book'.bids.Positive
  offers : book'.offers.Positive
  bidsLength : book'.bids.toList.length ≤ book.bids.toList.length
  offersLength : book'.offers.toList.length ≤ book.offers.toList.length
  bidPrices : ∀ l ∈ book'.bids, ∃ l' ∈ book.bids, l'.price = l.price
  offerPrices : ∀ l ∈ book'.offers, ∃ l' ∈ book.offers, l'.price = l.price
  traded_nonneg : 0 ≤ traded fills
  total : book.total = book'.total + 2 * traded fills
  crossed : ∀ fill ∈ fills, (∃ l ∈ book.bids, l.price = fill.bid.price) ∧
    (∃ l ∈ book.offers, l.price = fill.offer.price) ∧ fill.offer.price ≤ fill.bid.price

theorem Matched.refl (hbids : book.bids.Positive) (hoffers : book.offers.Positive) :
    Matched book [] book where
  bids := hbids
  offers := hoffers
  bidsLength := le_rfl
  offersLength := le_rfl
  bidPrices l hl := ⟨l, hl, rfl⟩
  offerPrices l hl := ⟨l, hl, rfl⟩
  traded_nonneg := le_rfl
  total := by simp [traded]
  crossed := by simp

theorem Matched.trans (h : Matched book fills book₁) (h' : Matched book₁ fills' book') :
    Matched book (fills ++ fills') book' := by
  have hbidPrices : ∀ price, (∃ l ∈ book₁.bids, l.price = price) →
      ∃ l ∈ book.bids, l.price = price := by
    rintro _ ⟨l, hl, rfl⟩
    exact h.bidPrices l hl
  have hofferPrices : ∀ price, (∃ l ∈ book₁.offers, l.price = price) →
      ∃ l ∈ book.offers, l.price = price := by
    rintro _ ⟨l, hl, rfl⟩
    exact h.offerPrices l hl
  have htraded : traded (fills ++ fills') = traded fills + traded fills' := by simp [traded]
  have hnonneg := h.traded_nonneg
  have hnonneg' := h'.traded_nonneg
  have htotal := h.total
  have htotal' := h'.total
  refine ⟨h'.bids, h'.offers, h'.bidsLength.trans h.bidsLength,
    h'.offersLength.trans h.offersLength, fun l hl => hbidPrices _ (h'.bidPrices l hl),
    fun l hl => hofferPrices _ (h'.offerPrices l hl), ?_, ?_, ?_⟩
  · omega
  · omega
  · intro fill hfill
    rcases List.mem_append.mp hfill with hfill | hfill
    · exact h.crossed fill hfill
    · obtain ⟨hbid, hoffer, hle⟩ := h'.crossed fill hfill
      exact ⟨hbidPrices _ hbid, hofferPrices _ hoffer, hle⟩

namespace OrderBook

theorem crossing_eq_some_iff : book.crossing = some fill ↔
    book.bids.toList.getLast? = some fill.bid ∧ book.offers.toList.head? = some fill.offer ∧
      fill.offer.price ≤ fill.bid.price := by
  obtain ⟨bid, offer⟩ := fill
  unfold crossing
  cases hbid : book.bids.toList.getLast? with
  | none => simp
  | some b =>
      cases hoffer : book.offers.toList.head? with
      | none => simp
      | some a =>
          by_cases hle : a.price ≤ b.price
          · simp only [hle, if_true, Option.some.injEq, Fill.mk.injEq]
            constructor
            · rintro ⟨rfl, rfl⟩
              exact ⟨rfl, rfl, hle⟩
            · rintro ⟨rfl, rfl, -⟩
              exact ⟨rfl, rfl⟩
          · simp only [hle, if_false, reduceCtorEq, Option.some.injEq, false_iff]
            rintro ⟨rfl, rfl, hle'⟩
            exact hle hle'

/-- The best levels do not cross just where no levels do. -/
theorem crossing_eq_none_iff : book.crossing = none ↔
    ∀ bid ∈ book.bids, ∀ offer ∈ book.offers, bid.price < offer.price := by
  constructor
  · intro hnone bid hbid offer hoffer
    obtain ⟨best, hbest⟩ := Option.ne_none_iff_exists'.mp
      (fun h => List.ne_nil_of_mem hbid (List.getLast?_eq_none_iff.mp h))
    obtain ⟨best', hbest'⟩ := Option.ne_none_iff_exists'.mp
      (fun h => List.ne_nil_of_mem hoffer (List.head?_eq_none_iff.mp h))
    have hlt : best.price < best'.price := by
      by_contra hnot
      have hsome : book.crossing = some ⟨best, best'⟩ :=
        crossing_eq_some_iff.mpr ⟨hbest, hbest', not_lt.mp hnot⟩
      simp [hnone] at hsome
    exact (Levels.price_le_of_getLast? hbest hbid).trans_lt
      (hlt.trans_le (Levels.le_price_of_head? hbest' hoffer))
  · intro hall
    by_contra hne
    obtain ⟨fill, hfill⟩ := Option.ne_none_iff_exists'.mp hne
    obtain ⟨hbid, hoffer, hle⟩ := crossing_eq_some_iff.mp hfill
    exact absurd (hall _ (List.mem_of_getLast? hbid) _ (List.mem_of_head? hoffer)) hle.not_gt

/-- One round of the loops. -/
theorem matched_fill (hbids : book.bids.Positive) (hoffers : book.offers.Positive)
    (h : book.crossing = some fill) : Matched book [fill] (book.fill fill) ∧
      (book.fill fill).bids.toList.length + (book.fill fill).offers.toList.length <
        book.bids.toList.length + book.offers.toList.length := by
  obtain ⟨hbid, hoffer, hle⟩ := crossing_eq_some_iff.mp h
  have hbid : fill.bid ∈ book.bids := List.mem_of_getLast? hbid
  have hoffer : fill.offer ∈ book.offers := List.mem_of_head? hoffer
  have hqty := fill.toInt_qty
  have hpos := hbids _ hbid
  have hpos' := hoffers _ hoffer
  have hfill : 0 < fill.qty.toInt := by omega
  have htotal := Levels.total_take hbid hfill (by omega)
  have htotal' := Levels.total_take hoffer hfill (by omega)
  have hlength : (book.bids.take fill.bid fill.qty).toList.length = _ := Levels.length_take hbid
  have hlength' : (book.offers.take fill.offer fill.qty).toList.length = _ :=
    Levels.length_take hoffer
  have hone := Levels.length_erase hbid
  have hone' := Levels.length_erase hoffer
  have htraded : traded [fill] = fill.qty.toInt := by simp [traded]
  have hprices : ∀ {levels : Levels} {level : OrderBookLevel}, level ∈ levels →
      ∀ l ∈ levels.take level fill.qty, ∃ l' ∈ levels, l'.price = l.price := by
    intro levels level hlevel l hl
    rcases Levels.mem_take hl with hl | ⟨-, rfl⟩
    · exact ⟨l, hl.1, rfl⟩
    · exact ⟨level, hlevel, rfl⟩
  refine ⟨?_, ?_⟩
  · exact
      { bids := Levels.positive_take hfill (by omega) hbids
        offers := Levels.positive_take hfill (by omega) hoffers
        bidsLength := by
          simp only [OrderBook.fill]
          omega
        offersLength := by
          simp only [OrderBook.fill]
          omega
        bidPrices := hprices hbid
        offerPrices := hprices hoffer
        traded_nonneg := by omega
        total := by
          simp only [OrderBook.total, OrderBook.fill]
          omega
        crossed := by
          intro f hf
          rw [List.mem_singleton.mp hf]
          exact ⟨⟨_, hbid, rfl⟩, ⟨_, hoffer, rfl⟩, hle⟩ }
  · -- the smaller of the two levels goes
    have hgone : fill.bid.qty = fill.qty ∨ fill.offer.qty = fill.qty := by
      rcases min_choice fill.bid.qty.toInt fill.offer.qty.toInt with hmin | hmin
      · exact .inl (Int64.toInt_inj.mp (hqty.trans hmin).symm)
      · exact .inr (Int64.toInt_inj.mp (hqty.trans hmin).symm)
    simp only [OrderBook.fill]
    rcases hgone with hgone | hgone
    · rw [if_pos hgone] at hlength
      split at hlength' <;> omega
    · rw [if_pos hgone] at hlength'
      split at hlength <;> omega

/-- The loops end with levels that do not cross. -/
theorem matchLoop_spec {n : ℕ} (hbids : book.bids.Positive) (hoffers : book.offers.Positive)
    (hn : book.bids.toList.length + book.offers.toList.length ≤ n) :
    Matched book (matchLoop n book).1 (matchLoop n book).2 ∧
      (matchLoop n book).2.crossing = none := by
  induction n generalizing book with
  | zero =>
      have hnil : book.bids.toList = [] := List.length_eq_zero_iff.mp (by omega)
      have hnone : book.crossing = none := by
        refine crossing_eq_none_iff.mpr fun bid hbid => ?_
        rw [Levels.mem_iff, hnil] at hbid
        exact absurd hbid List.not_mem_nil
      exact ⟨.refl hbids hoffers, hnone⟩
  | succ n ih =>
      unfold matchLoop
      cases hcrossing : book.crossing with
      | none => exact ⟨.refl hbids hoffers, hcrossing⟩
      | some fill =>
          obtain ⟨hmatched, hlt⟩ := matched_fill hbids hoffers hcrossing
          obtain ⟨hrest, hnone⟩ := ih hmatched.bids hmatched.offers (by omega)
          exact ⟨hmatched.trans hrest, hnone⟩

theorem matchOrders_spec (hbids : book.bids.Positive) (hoffers : book.offers.Positive) :
    Matched book book.matchOrders.1 book.matchOrders.2 ∧ book.matchOrders.2.crossing = none :=
  matchLoop_spec hbids hoffers le_rfl

/-- Levels that do not cross do not trade. -/
theorem matchOrders_of_crossing (h : book.crossing = none) : book.matchOrders = ([], book) := by
  unfold matchOrders
  cases book.bids.toList.length + book.offers.toList.length <;> simp [matchLoop, h]

theorem mem_matchOrders (h : book.crossing = some fill) : fill ∈ book.matchOrders.1 := by
  have hbid := List.mem_of_getLast? (crossing_eq_some_iff.mp h).1
  obtain ⟨n, hn⟩ := Nat.exists_eq_succ_of_ne_zero (List.length_pos_of_mem hbid).ne'
  unfold matchOrders
  rw [hn, Nat.succ_add]
  simp [matchLoop, h]

/-! ## The level of an order -/

variable {levels : Levels} {level l : OrderBookLevel} {price : ℚ} {qty : Int64} {s : Side}

theorem perm_putOrder_new (h : levels.find? price = none) :
    (putOrder levels price qty).toList.Perm (⟨price, qty, 1⟩ :: levels.toList) := by
  rw [putOrder, h]
  exact Levels.perm_insert fun l hl => Levels.price_ne_of_find? h hl

theorem perm_putOrder_merge (h : levels.find? price = some level) :
    (putOrder levels price qty).toList.Perm (merge level qty :: (levels.erase price).toList) := by
  rw [putOrder, h]
  obtain ⟨-, hprice⟩ := Levels.price_of_find? h
  refine Levels.perm_insert fun l hl => ?_
  have hne := (Levels.mem_erase.mp hl).2
  rwa [← hprice] at hne

theorem evict_of_le (h : levels.toList.length ≤ maxDepth) : evict s levels = levels :=
  if_neg (by omega)

theorem worst_of_le (h : levels.toList.length ≤ maxDepth) : worst s levels = none :=
  if_neg (by omega)

/-- The worst level is all that goes. -/
theorem evict_spec (h : levels.toList.length ≤ maxDepth + 1) :
    (evict s levels).toList.length ≤ maxDepth ∧
      levels.toList.Perm ((worst s levels).toList ++ (evict s levels).toList) := by
  by_cases hlt : maxDepth < levels.toList.length
  · have hne : levels.toList ≠ [] := by
      rintro hnil
      simp [hnil] at hlt
    unfold evict worst
    rw [if_pos hlt, if_pos hlt]
    cases s with
    | Sell =>
        refine ⟨by simp only [Levels.eraseLast, List.length_dropLast]; omega, ?_⟩
        have hlast := List.dropLast_append_getLast hne
        rw [List.getLast?_eq_some_getLast hne, Levels.eraseLast]
        conv_lhs => rw [← hlast]
        exact List.perm_append_comm
    | Buy =>
        refine ⟨by simp only [Levels.eraseFirst, List.length_tail]; omega, ?_⟩
        obtain ⟨first, rest, hlist⟩ := List.exists_cons_of_ne_nil hne
        simp [Levels.eraseFirst, hlist]
  · rw [evict_of_le (by omega), worst_of_le (by omega)]
    exact ⟨by omega, .refl _⟩

theorem mem_of_mem_evict (h : levels.toList.length ≤ maxDepth + 1) (hl : l ∈ evict s levels) :
    l ∈ levels := by
  rw [Levels.mem_iff, (evict_spec (s := s) h).2.mem_iff]
  exact List.mem_append_right _ hl

theorem total_evict (h : levels.toList.length ≤ maxDepth + 1) :
    levels.total = ((worst s levels).map (·.qty.toInt)).getD 0 + (evict s levels).total := by
  rw [Levels.total_of_perm (evict_spec (s := s) h).2, List.map_append, List.sum_append]
  cases worst s levels <;> simp [Levels.total]

/-! ## Merged orders -/

theorem toInt_add_qty {a b : Int64} (ha : 0 < a.toInt) (hb : 0 < b.toInt) :
    (a + b).toInt = a.toInt + b.toInt - if a.toInt + b.toInt < 2 ^ 63 then 0 else 2 ^ 64 := by
  have ha' := a.toInt_lt
  have hb' := b.toInt_lt
  rw [Int64.toInt_add]
  split
  · rw [Int.bmod_eq_of_le] <;> omega
  · rw [← Int.sub_bmod_right, Int.bmod_eq_of_le] <;> omega

/-- A level that an order is merged into has its quantity afterwards and is positive if and only if it
held no more than the limit and the sum did not overflow. -/
theorem merge_iff (hlevel : 0 < level.qty.toInt) (hqty : 0 < qty.toInt) :
    0 < (merge level qty).qty.toInt ∧ level.qty.toInt ≤ (merge level qty).qty.toInt ↔
      level.qty.toInt ≤ maxLevelQty.toInt ∧ level.qty.toInt + qty.toInt < 2 ^ 63 := by
  have hmax : maxLevelQty.toInt = 2000 := by decide
  have hsum := toInt_add_qty hlevel hqty
  have hlt := level.qty.toInt_lt
  have hlt' := qty.toInt_lt
  have hmerge : (merge level qty).qty.toInt = min 2000 (level.qty + qty).toInt := by
    unfold merge
    dsimp only
    split
    · rename_i h
      rw [Int64.lt_iff_toInt_lt, hmax] at h
      omega
    · rename_i h
      rw [Int64.lt_iff_toInt_lt, hmax] at h
      omega
  rw [hmerge, hsum, hmax]
  split <;> omega

/-! ## One order -/

theorem total_eq (book : OrderBook) (s : Side) :
    book.total = (book.side s).total + (book.side s.other).total := by
  cases s
  · rfl
  · exact Int.add_comm _ _

variable (book o) in
theorem side_withOrder : (book.withOrder o).side o.side =
    evict o.side (putOrder (book.side o.side) (roundPrice o.price) o.qty) := by
  unfold withOrder
  cases o.side <;> rfl

variable (book o) in
theorem other_withOrder : (book.withOrder o).side o.side.other = book.side o.side.other := by
  unfold withOrder
  cases o.side <;> rfl

variable (book) in
theorem offers_withOrder (hs : o.side = .Buy) : (book.withOrder o).offers = book.offers := by
  have hother := other_withOrder book o
  rw [hs] at hother
  exact hother

variable (book) in
theorem bids_withOrder (hs : o.side = .Sell) : (book.withOrder o).bids = book.bids := by
  have hother := other_withOrder book o
  rw [hs] at hother
  exact hother

/-- What holds of the side of an order and of the other one holds of the bids and the offers. -/
theorem both_sides {p : Levels → Prop} (hside : p (book.side s)) (hother : p (book.side s.other)) :
    p book.bids ∧ p book.offers := by
  cases s
  · exact ⟨hside, hother⟩
  · exact ⟨hother, hside⟩

end OrderBook

open OrderBook

variable {level : OrderBookLevel}

theorem Sane.positive (h : Sane book) (s : Side) : (book.side s).Positive := by
  cases s
  · exact h.bids
  · exact h.offers

theorem Sane.depth (h : Sane book) (s : Side) : (book.side s).toList.length ≤ maxDepth := by
  cases s
  · exact h.bidsDepth
  · exact h.offersDepth

/-- The other side of an order is as it was. -/
theorem Sane.sides_withOrder (h : Sane book)
    (hpositive : ((book.withOrder o).side o.side).Positive)
    (hdepth : ((book.withOrder o).side o.side).toList.length ≤ maxDepth) :
    ((book.withOrder o).bids.Positive ∧ (book.withOrder o).bids.toList.length ≤ maxDepth) ∧
      (book.withOrder o).offers.Positive ∧ (book.withOrder o).offers.toList.length ≤ maxDepth := by
  refine both_sides (p := fun levels => levels.Positive ∧ levels.toList.length ≤ maxDepth)
    ⟨hpositive, hdepth⟩ ?_
  rw [other_withOrder]
  exact ⟨h.positive _, h.depth _⟩

/-- A book is uncrossed where the levels of one side are at the prices of those of an uncrossed
book. -/
theorem Sane.uncrossed_withOrder (h : Sane book)
    (hprices : ∀ l ∈ (book.withOrder o).side o.side, ∃ l' ∈ book.side o.side, l'.price = l.price) :
    ∀ bid ∈ (book.withOrder o).bids, ∀ offer ∈ (book.withOrder o).offers,
      bid.price < offer.price := by
  intro bid hbid offer hoffer
  cases hs : o.side with
  | Buy =>
      rw [hs] at hprices
      obtain ⟨bid', hbid', hprice⟩ := hprices bid hbid
      rw [offers_withOrder book hs] at hoffer
      rw [← hprice]
      exact h.uncrossed bid' hbid' offer hoffer
  | Sell =>
      rw [hs] at hprices
      obtain ⟨offer', hoffer', hprice⟩ := hprices offer hoffer
      rw [bids_withOrder book hs] at hbid
      rw [← hprice]
      exact h.uncrossed bid hbid offer' hoffer'

theorem Levels.qtyAt_of_find? {levels : Levels} {price : ℚ}
    (h : levels.find? price = some level) : levels.qtyAt price = level.qty.toInt := by
  simp [Levels.qtyAt, h]

/-- An order that is merged into a level. -/
theorem fair_iff_of_merge (hsane : Sane book) (hqty : 0 < o.qty.toInt)
    (hfind : (book.side o.side).find? (roundPrice o.price) = some level) :
    Fair book o (book.withOrder o).matchOrders.1 (book.withOrder o).matchOrders.2 ↔
      Safe book o := by
  obtain ⟨hlevel, hprice⟩ := Levels.price_of_find? hfind
  have hperm : (putOrder (book.side o.side) (roundPrice o.price) o.qty).toList.Perm _ :=
    perm_putOrder_merge hfind
  have hdepth := hsane.depth o.side
  have herase := Levels.length_erase hlevel
  have htotal := Levels.total_erase hlevel
  rw [hprice] at herase htotal
  have hlength : (putOrder (book.side o.side) (roundPrice o.price) o.qty).toList.length =
      (book.side o.side).toList.length := by
    rw [hperm.length_eq, List.length_cons, herase]
  have hmem : ∀ l, l ∈ putOrder (book.side o.side) (roundPrice o.price) o.qty ↔
      l = merge level o.qty ∨ l ∈ (book.side o.side).erase (roundPrice o.price) := by
    intro l
    rw [Levels.mem_iff, hperm.mem_iff, List.mem_cons]
    rfl
  have hside : (book.withOrder o).side o.side =
      putOrder (book.side o.side) (roundPrice o.price) o.qty := by
    rw [side_withOrder, evict_of_le (by omega)]
  have hevicted : book.evicted o = 0 := by
    rw [evicted, worst_of_le (by omega)]
    rfl
  have hafter : ((book.withOrder o).side o.side).find? (roundPrice o.price) =
      some (merge level o.qty) := by
    rw [hside, Levels.find?_eq_some_iff, hmem]
    exact ⟨.inl rfl, hprice⟩
  have huncrossed := hsane.uncrossed_withOrder (o := o) (by
    rw [hside]
    intro l hl
    rcases (hmem l).mp hl with rfl | hl
    · exact ⟨level, hlevel, rfl⟩
    · exact ⟨l, (Levels.mem_erase.mp hl).1, rfl⟩)
  rw [matchOrders_of_crossing (crossing_eq_none_iff.mpr huncrossed)]
  have hkept : (book.side o.side).qtyAt (roundPrice o.price) ≤
      ((book.withOrder o).side o.side).qtyAt (roundPrice o.price) + traded [] ↔
        level.qty.toInt ≤ (merge level o.qty).qty.toInt := by
    rw [Levels.qtyAt_of_find? hfind, Levels.qtyAt_of_find? hafter]
    simp [traded]
  have hmerge := merge_iff (hsane.positive o.side level hlevel) hqty
  constructor
  · intro hfair
    have hpositive : 0 < (merge level o.qty).qty.toInt :=
      hfair.sane.positive o.side _ (Levels.price_of_find? hafter).1
    refine ⟨?_, ?_⟩
    · intro hs bid hbid
      rw [hs] at hlevel
      rw [← hprice]
      exact (hsane.uncrossed bid hbid level hlevel).le
    · intro l hl
      rw [hfind] at hl
      obtain rfl := Option.some.inj hl
      exact hmerge.mp ⟨hpositive, hkept.mp hfair.kept⟩
  · intro hsafe
    obtain ⟨hpositive, hle⟩ := hmerge.mpr (hsafe.qty level hfind)
    have hpositive' : ((book.withOrder o).side o.side).Positive := by
      rw [hside]
      intro l hl
      rcases (hmem l).mp hl with rfl | hl
      · exact hpositive
      · exact hsane.positive o.side l (Levels.mem_erase.mp hl).1
    have hother := other_withOrder book o
    refine ⟨?_, by simp, hkept.mpr hle, ?_⟩
    · have hdepth' : ((book.withOrder o).side o.side).toList.length ≤ maxDepth := by
        rw [hside]
        omega
      obtain ⟨⟨hbids, hbidsDepth⟩, hoffers, hoffersDepth⟩ := hsane.sides_withOrder hpositive' hdepth'
      exact ⟨hbids, hoffers, hbidsDepth, hoffersDepth, huncrossed⟩
    · have htotal' := Levels.total_of_perm hperm
      rw [List.map_cons, List.sum_cons] at htotal'
      rw [total_eq book o.side, total_eq (book.withOrder o) o.side, hother, hside, htotal',
        hevicted, refused, hfind, htotal]
      simp only [traded, Levels.total, List.map_nil, List.sum_nil]
      omega

theorem Levels.qtyAt_nonneg {levels : Levels} {price : ℚ} (h : levels.Positive) :
    0 ≤ levels.qtyAt price := by
  unfold Levels.qtyAt
  cases hfind : levels.find? price with
  | none => exact le_rfl
  | some l => exact (h l (Levels.price_of_find? hfind).1).le

/-- A book with an order at a new price: its levels are those of the book and the order's. -/
structure WithNew (book : OrderBook) (o : Order) : Prop where
  bids : (book.withOrder o).bids.Positive
  offers : (book.withOrder o).offers.Positive
  bidsDepth : (book.withOrder o).bids.toList.length ≤ maxDepth
  offersDepth : (book.withOrder o).offers.toList.length ≤ maxDepth
  total : o.qty.toInt + book.total = (book.withOrder o).total + book.evicted o
  mem : ∀ l ∈ (book.withOrder o).side o.side,
    l = ⟨roundPrice o.price, o.qty, 1⟩ ∨ l ∈ book.side o.side

/-- A new level is one more than there are. -/
theorem Sane.length_putOrder_le (h : Sane book)
    (hfind : (book.side o.side).find? (roundPrice o.price) = none) :
    (putOrder (book.side o.side) (roundPrice o.price) o.qty).toList.length ≤ maxDepth + 1 := by
  have hdepth := h.depth o.side
  rw [(perm_putOrder_new hfind).length_eq, List.length_cons]
  omega

theorem withNew (hsane : Sane book) (hqty : 0 < o.qty.toInt)
    (hfind : (book.side o.side).find? (roundPrice o.price) = none) : WithNew book o := by
  have hperm : (putOrder (book.side o.side) (roundPrice o.price) o.qty).toList.Perm _ :=
    perm_putOrder_new hfind
  have hlength := hsane.length_putOrder_le hfind
  have hside := side_withOrder book o
  have hother := other_withOrder book o
  have hmem : ∀ l ∈ (book.withOrder o).side o.side,
      l = ⟨roundPrice o.price, o.qty, 1⟩ ∨ l ∈ book.side o.side := by
    intro l hl
    rw [hside] at hl
    have hput := mem_of_mem_evict hlength hl
    rw [Levels.mem_iff, hperm.mem_iff, List.mem_cons] at hput
    exact hput
  have hpositive : ((book.withOrder o).side o.side).Positive := by
    intro l hl
    rcases hmem l hl with rfl | hl
    · exact hqty
    · exact hsane.positive o.side l hl
  have hdepth' : ((book.withOrder o).side o.side).toList.length ≤ maxDepth := by
    rw [hside]
    exact (evict_spec hlength).1
  have htotal : o.qty.toInt + book.total = (book.withOrder o).total + book.evicted o := by
    have hput := Levels.total_of_perm hperm
    have hevict := total_evict (s := o.side) hlength
    rw [List.map_cons, List.sum_cons] at hput
    rw [total_eq book o.side, total_eq (book.withOrder o) o.side, hother, hside, evicted]
    simp only [Levels.total] at hput hevict ⊢
    omega
  obtain ⟨⟨hbids, hbidsDepth⟩, hoffers, hoffersDepth⟩ := hsane.sides_withOrder hpositive hdepth'
  exact ⟨hbids, hoffers, hbidsDepth, hoffersDepth, htotal, hmem⟩

/-- All but the prices of the trades is as it should be. -/
theorem WithNew.fair (h : WithNew book o)
    (hfind : (book.side o.side).find? (roundPrice o.price) = none)
    (hprice : ∀ fill ∈ (book.withOrder o).matchOrders.1,
      (fill.trade o.side).price = fill.restingPrice o.side) :
    Fair book o (book.withOrder o).matchOrders.1 (book.withOrder o).matchOrders.2 := by
  obtain ⟨hmatched, hnone⟩ := matchOrders_spec h.bids h.offers
  have hsane : Sane (book.withOrder o).matchOrders.2 :=
    ⟨hmatched.bids, hmatched.offers, hmatched.bidsLength.trans h.bidsDepth,
      hmatched.offersLength.trans h.offersDepth, crossing_eq_none_iff.mp hnone⟩
  refine ⟨hsane, hprice, ?_, ?_⟩
  · have hbefore : (book.side o.side).qtyAt (roundPrice o.price) = 0 := by
      simp [Levels.qtyAt, hfind]
    rw [hbefore]
    exact add_nonneg (Levels.qtyAt_nonneg (hsane.positive o.side)) hmatched.traded_nonneg
  · have htotal := h.total
    have htotal' := hmatched.total
    have hrefused : book.refused o = 0 := by simp [refused, hfind]
    omega

/-- An order to sell below a bid trades with it first. -/
theorem exists_fill_of_below (hsane : Sane book) (hs : o.side = .Sell)
    (hfind : (book.side o.side).find? (roundPrice o.price) = none)
    {bid : OrderBookLevel} (hbid : bid ∈ book.bids) (hlt : roundPrice o.price < bid.price) :
    ∃ fill ∈ (book.withOrder o).matchOrders.1, fill.offer.price < fill.bid.price := by
  have hbids := bids_withOrder book hs
  have hside := side_withOrder book o
  have hperm : (putOrder (book.side o.side) (roundPrice o.price) o.qty).toList.Perm _ :=
    perm_putOrder_new hfind
  have hdepth := hsane.depth o.side
  have hlength := hsane.length_putOrder_le hfind
  -- the new level is not the worst one: the others are above the bid
  have hnew : (⟨roundPrice o.price, o.qty, 1⟩ : OrderBookLevel) ∈ (book.withOrder o).offers := by
    have hput : (⟨roundPrice o.price, o.qty, 1⟩ : OrderBookLevel) ∈
        (putOrder (book.side o.side) (roundPrice o.price) o.qty).toList :=
      hperm.mem_iff.mpr List.mem_cons_self
    rw [(evict_spec (s := o.side) hlength).2.mem_iff, List.mem_append, ← hside] at hput
    rcases hput with hworst | hput
    · exfalso
      rw [Option.mem_toList, hs] at hworst
      rw [hs] at hperm hdepth
      unfold worst at hworst
      split at hworst
      · rename_i hmany
        rw [hperm.length_eq, List.length_cons] at hmany
        have hone : 0 < (book.side .Sell).toList.length := by
          have : maxDepth = 20 := rfl
          omega
        obtain ⟨offer, hoffer⟩ := List.exists_mem_of_length_pos hone
        have hput : offer ∈ putOrder (book.side .Sell) (roundPrice o.price) o.qty := by
          rw [Levels.mem_iff, hperm.mem_iff]
          exact List.mem_cons_of_mem _ hoffer
        have hle := Levels.price_le_of_getLast? hworst hput
        exact absurd (hsane.uncrossed bid hbid offer hoffer) (by linarith)
      · cases hworst
    · rw [hs] at hput
      exact hput
  cases hcrossing : (book.withOrder o).crossing with
  | none =>
      have := crossing_eq_none_iff.mp hcrossing bid (by rwa [hbids]) _ hnew
      exact absurd this hlt.le.not_gt
  | some fill =>
      obtain ⟨hlast, hhead, -⟩ := crossing_eq_some_iff.mp hcrossing
      refine ⟨fill, mem_matchOrders hcrossing, ?_⟩
      have hle := Levels.le_price_of_head? hhead hnew
      have hge := Levels.price_le_of_getLast? hlast (l := bid) (by rwa [hbids])
      exact (hle.trans_lt hlt).trans_le hge

/-- An order at a new price. -/
theorem fair_iff_of_new (hsane : Sane book) (hqty : 0 < o.qty.toInt)
    (hfind : (book.side o.side).find? (roundPrice o.price) = none) :
    Fair book o (book.withOrder o).matchOrders.1 (book.withOrder o).matchOrders.2 ↔
      Safe book o := by
  have hnew := withNew hsane hqty hfind
  constructor
  · intro hfair
    refine ⟨?_, by simp [hfind]⟩
    intro hs bid hbid
    by_contra hlt
    obtain ⟨fill, hfill, hne⟩ :=
      exists_fill_of_below hsane hs hfind hbid (not_le.mp hlt)
    have hprice := hfair.price fill hfill
    rw [hs] at hprice
    exact hne.ne hprice
  · intro hsafe
    refine hnew.fair hfind fun fill hfill => ?_
    obtain ⟨⟨bid, hbid, hbidPrice⟩, ⟨offer, hoffer, hofferPrice⟩, hle⟩ :=
      (matchOrders_spec hnew.bids hnew.offers).1.crossed fill hfill
    cases hs : o.side with
    | Buy => rfl
    | Sell =>
        have hmem := hnew.mem
        rw [hs] at hmem
        rw [bids_withOrder book hs] at hbid
        -- only the order can cross a bid, and it is at the bid's price
        rcases hmem offer hoffer with rfl | hold
        · have hbelow := hsafe.price hs bid hbid
          refine le_antisymm hle ?_
          rw [Fill.restingPrice, ← hbidPrice]
          exact hbelow.trans_eq hofferPrice
        · have hlt := hsane.uncrossed bid hbid offer hold
          rw [hbidPrice, hofferPrice] at hlt
          exact absurd hle hlt.not_ge

/-- An order to a sane book does what it should if and only if it is safe. -/
theorem fair_iff (hsane : Sane book) (hqty : 0 < o.qty.toInt)
    (h : book.order o = .ok (fills, book')) : Fair book o fills book' ↔ Safe book o := by
  unfold OrderBook.order at h
  split at h
  · cases h
  · obtain ⟨rfl, rfl⟩ := Prod.mk.inj (Except.ok.inj h)
    cases hfind : (book.side o.side).find? (roundPrice o.price) with
    | none => exact fair_iff_of_new hsane hqty hfind
    | some level => exact fair_iff_of_merge hsane hqty hfind

/-! ## Runs -/

/-- An order of a positive quantity. -/
abbrev PositiveOrder := { o : Order // 0 < o.qty.toInt }

/-- A book after an order.  One for another security throws and changes nothing. -/
def OrderBook.step (book : OrderBook) (o : PositiveOrder) : OrderBook :=
  match book.order o with
  | .ok (_, book') => book'
  | .error _ => book

/-- What an order does, if it is accepted, is fair. -/
def FairStep (book : OrderBook) (o : PositiveOrder) : Prop :=
  ∀ fills book', book.order o = .ok (fills, book') → Fair book o fills book'

/-- An order for the security of the book is safe. -/
def SafeStep (book : OrderBook) (o : PositiveOrder) : Prop :=
  book.security = o.1.secid → Safe book o

theorem sane_empty (security : String) : Sane (.empty security) where
  bids := by
    intro l hl
    exact absurd hl Levels.notMem_empty
  offers := by
    intro l hl
    exact absurd hl Levels.notMem_empty
  bidsDepth := Nat.zero_le _
  offersDepth := Nat.zero_le _
  uncrossed := by
    intro l hl
    exact absurd hl Levels.notMem_empty

theorem fairStep_iff (hsane : Sane book) (o : PositiveOrder) :
    FairStep book o ↔ SafeStep book o := by
  by_cases hsecurity : book.security = o.1.secid
  · have horder : book.order o = .ok (book.withOrder o).matchOrders := if_neg (not_not.mpr hsecurity)
    have hiff := fair_iff hsane o.2 horder
    constructor
    · exact fun hfair _ => hiff.mp (hfair _ _ horder)
    · intro hsafe fills book' h
      exact (fair_iff hsane o.2 h).mpr (hsafe hsecurity)
  · have horder : ∃ e, book.order o = .error e := ⟨_, if_pos hsecurity⟩
    obtain ⟨e, horder⟩ := horder
    constructor
    · exact fun _ h => absurd h hsecurity
    · intro _ fills book' h
      rw [horder] at h
      cases h

theorem Sane.step (hsane : Sane book) {o : PositiveOrder} (hfair : FairStep book o) :
    Sane (book.step o) := by
  unfold OrderBook.step
  cases horder : book.order o with
  | error e => exact hsane
  | ok result => exact (hfair _ _ horder).sane

/-- Every order of a run does what it should just where every one is safe. -/
theorem along_fair_iff (security : String) (os : List PositiveOrder) :
    Logic.Along OrderBook.step FairStep (.empty security) os ↔
      Logic.Along OrderBook.step SafeStep (.empty security) os := by
  constructor
  · intro h
    exact h.along (P := Sane) (fun _ _ hsane hfair => hsane.step hfair)
      (fun _ o hsane hfair => (fairStep_iff hsane o).mp hfair) (sane_empty security)
  · intro h
    exact h.along (P := Sane)
      (fun _ o hsane hsafe => hsane.step ((fairStep_iff hsane o).mpr hsafe))
      (fun _ o hsane hsafe => (fairStep_iff hsane o).mpr hsafe) (sane_empty security)

/-- A book with a bid. -/
def exampleBid (price : ℚ) (qty : Int64) : OrderBook :=
  (OrderBook.empty "600000").withOrder ⟨"600000", .Buy, price, qty⟩

def exampleSell : PositiveOrder :=
  ⟨⟨"600000", .Sell, Logic.Binary64.round (999 / 100), 5⟩, by decide⟩

def exampleBuy : PositiveOrder := ⟨⟨"600000", .Buy, 10, 1⟩, by decide⟩

/-- An order to sell at 9.99 trades with a bid at 10 at its own price, and an order to buy 1 takes
1000 from a bid for 3000. -/
theorem not_fair_of_sell :
    ((exampleBid 10 5).withOrder exampleSell).matchOrders.1.map (Fill.trade .Sell) =
        [⟨Logic.Binary64.round (999 / 100), 5, .Sell⟩] ∧
      ¬ FairStep (exampleBid 10 5) exampleSell ∧
      ((exampleBid 10 3000).withOrder exampleBuy).matchOrders.2.bids.qtyAt 10 = 2000 ∧
      ¬ FairStep (exampleBid 10 3000) exampleBuy := by
  refine ⟨by decide +kernel, ?_, by decide +kernel, ?_⟩
  · intro h
    have hprice := (h _ _ (if_neg (by decide))).price
      ⟨⟨10, 5, 1⟩, ⟨Logic.Binary64.round (999 / 100), 5, 1⟩⟩ (by decide +kernel)
    exact absurd hprice (by decide +kernel)
  · intro h
    exact absurd (h _ _ (if_neg (by decide))).kept (by decide +kernel)

end Kungfu.Broker.Sim
