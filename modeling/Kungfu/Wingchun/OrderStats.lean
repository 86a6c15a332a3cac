import Kungfu.Logic.Binary64
import Kungfu.Longfist.Account
import Kungfu.Logic.Run
import Mathlib.Algebra.BigOperators.Group.Finset.Basic
import Mathlib.Data.Rat.Cast.Order
import Mathlib.Tactic.Linarith

/-!
# Order statistics

The ledger notes of every order when it was put in, inserted and acknowledged, and what it traded.
A trade is taken for new if it comes later than the last one that was counted, so that trades of one
time are counted once and one trade that comes by two channels at two times is counted twice.  The
sums are doubles, and what is cut off the average is cut off a double.
-/

namespace Kungfu.Wingchun

open Logic Longfist

deriving instance DecidableEq for Longfist.Trade

structure OrderStat where
  orderId : UInt64
  mdTime : Int64
  inputTime : Int64
  insertTime : Int64
  ackTime : Int64
  tradeTime : Int64
  totalPrice : ℚ
  totalVolume : ℚ
  avgPrice : ℚ

/-- An event with trading data. -/
structure StatEvent where
  genTime : Int64
  triggerTime : Int64
  source : UInt32
  data : TradingData

namespace OrderStat

/-- `OrderStat()`. -/
def empty : OrderStat := ⟨0, 0, 0, 0, 0, 0, 0, 0, 0⟩

/-- A number without what is behind its point. -/
def truncate (x : ℚ) : ℤ := x.num.tdiv x.den

/-- The numbers that an `int` can hold. -/
def FitsInt (n : ℤ) : Prop := -2 ^ 31 ≤ n ∧ n < 2 ^ 31

instance (n : ℤ) : Decidable (FitsInt n) := inferInstanceAs (Decidable (_ ∧ _))

/-- A conversion to `int`.  What becomes of a number that does not fit is not defined. -/
def toInt (undefined : ℚ → Int32) (x : ℚ) : ℤ :=
  if FitsInt (truncate x) then truncate x else (undefined x).toInt

variable (undefined : ℚ → Int32)

/-- What an order input changes. -/
def onOrderInput (e : StatEvent) (orderId : UInt64) (stat : OrderStat) : OrderStat :=
  { stat with
    orderId := orderId
    mdTime := e.triggerTime
    inputTime := e.genTime }

/-- What an order changes. -/
def onOrder (e : StatEvent) (stat : OrderStat) : OrderStat :=
  if stat.insertTime = 0 then { stat with insertTime := e.genTime }
  else if stat.ackTime = 0 then { stat with ackTime := e.genTime }
  else stat

/-- The total price with that of a trade. -/
def addPrice (t : Trade Details) (stat : OrderStat) : ℚ :=
  Binary64.round
    (stat.totalPrice + Binary64.round (t.details.price * Binary64.round t.volume.toInt))

/-- The total volume with that of a trade. -/
def addVolume (t : Trade Details) (stat : OrderStat) : ℚ :=
  Binary64.round (stat.totalVolume + Binary64.round t.volume.toInt)

/-- Ten thousand times the average, whose integer part is kept. -/
def scaledAverage (totalPrice totalVolume : ℚ) : ℚ :=
  Binary64.round (Binary64.round (totalPrice / totalVolume) * 10000)

/-- What a trade changes that is taken for a new one. -/
def count (e : StatEvent) (t : Trade Details) (stat : OrderStat) : OrderStat :=
  let totalPrice := addPrice t stat
  let totalVolume := addVolume t stat
  { stat with
    tradeTime := e.genTime
    totalPrice := totalPrice
    totalVolume := totalVolume
    avgPrice :=
      if 0 < totalVolume then
        Binary64.round (toInt undefined (scaledAverage totalPrice totalVolume) / 10000)
      else stat.avgPrice }

@[simp] theorem tradeTime_onOrderInput (e : StatEvent) (orderId : UInt64) (stat : OrderStat) :
    (onOrderInput e orderId stat).tradeTime = stat.tradeTime := rfl

@[simp] theorem tradeTime_onOrder (e : StatEvent) (stat : OrderStat) :
    (onOrder e stat).tradeTime = stat.tradeTime := by
  unfold onOrder
  split
  · rfl
  · split <;> rfl

@[simp] theorem tradeTime_count (e : StatEvent) (t : Trade Details) (stat : OrderStat) :
    (count undefined e t stat).tradeTime = e.genTime := rfl

/-- What a trade changes. -/
def onTrade (e : StatEvent) (t : Trade Details) (stat : OrderStat) : OrderStat :=
  if stat.tradeTime < e.genTime then count undefined e t stat else stat

/-- What an event changes of the statistics of its order. -/
def update (e : StatEvent) (stat : OrderStat) : OrderStat :=
  match e.data with
  | .orderInput i => onOrderInput e i.orderId stat
  | .order _ => onOrder e stat
  | .trade t => onTrade undefined e t stat

end OrderStat

namespace Ledger

/-- `order_stats_`. -/
abbrev OrderStats := UInt64 → Option OrderStat

/-- `get_order_stat`: the statistics of an order, or new ones. -/
def getOrderStat (orderStats : OrderStats) (orderId : UInt64) : OrderStat :=
  (orderStats orderId).getD .empty

/-- `update_order_stat`, without what is written to the books. -/
def updateOrderStat (undefined : ℚ → Int32) (orderStats : OrderStats) (e : StatEvent) : OrderStats :=
  Function.update orderStats e.data.orderId
    (some ((getOrderStat orderStats e.data.orderId).update undefined e))

/-- One event after another, from a ledger that knows no orders. -/
def orderStatsAfter (undefined : ℚ → Int32) (es : List StatEvent) : OrderStats :=
  es.foldl (updateOrderStat undefined) fun _ => none

/-- The statistics of an order after events. -/
def statAfter (undefined : ℚ → Int32) (orderId : UInt64) (es : List StatEvent) : OrderStat :=
  getOrderStat (orderStatsAfter undefined es) orderId

variable {undefined : ℚ → Int32} {orderId : UInt64} {es : List StatEvent} {e : StatEvent}

theorem statAfter_nil : statAfter undefined orderId [] = .empty := rfl

theorem statAfter_append : statAfter undefined orderId (es ++ [e]) =
    if e.data.orderId = orderId then (statAfter undefined orderId es).update undefined e
    else statAfter undefined orderId es := by
  simp only [statAfter, orderStatsAfter, List.foldl_append, List.foldl_cons, List.foldl_nil]
  by_cases heq : e.data.orderId = orderId
  · subst heq
    simp [updateOrderStat, getOrderStat]
  · simp [updateOrderStat, getOrderStat, heq, Function.update_of_ne (Ne.symm heq)]

/-- The trade of an order that an event brings. -/
def tradeOf (orderId : UInt64) (e : StatEvent) : Option (Trade Details) :=
  match e.data with
  | .trade t => if t.orderId = orderId then some t else none
  | _ => none

/-- The distinct trades of an order among events. -/
def tradesOf (orderId : UInt64) (es : List StatEvent) : Finset (Trade Details) :=
  (es.filterMap (tradeOf orderId)).toFinset

/-- The sum of price times volume. -/
def tradedPrice (trades : Finset (Trade Details)) : ℚ :=
  ∑ t ∈ trades, t.details.price * t.volume.toInt

/-- The sum of the volumes. -/
def tradedVolume (trades : Finset (Trade Details)) : ℚ := ∑ t ∈ trades, (t.volume.toInt : ℚ)

/-- Statistics tell what distinct trades come to.  The average, which is the double next to four
decimals, has no meaning where nothing is traded. -/
structure Right (stat : OrderStat) (trades : Finset (Trade Details)) : Prop where
  totalPrice : stat.totalPrice = tradedPrice trades
  totalVolume : stat.totalVolume = tradedVolume trades
  avgPrice : 0 < tradedVolume trades → stat.avgPrice = Binary64.round
    (OrderStat.truncate (tradedPrice trades / tradedVolume trades * 10000) / 10000)

/-- Nothing is lost where the price and the volume of a new trade are added, and nothing is changed
where a known trade is added, such as one of no volume. -/
def AddsRight (stat : OrderStat) (trades : Finset (Trade Details)) (t : Trade Details) : Prop :=
  if t ∈ trades then stat.addPrice t = stat.totalPrice ∧ stat.addVolume t = stat.totalVolume
  else stat.addPrice t = stat.totalPrice + t.details.price * t.volume.toInt ∧
    stat.addVolume t = stat.totalVolume + t.volume.toInt

/-- The average fits an `int` with four decimals, and rounding does not carry it over one of them. -/
def CutsRight (totalPrice totalVolume : ℚ) : Prop :=
  let scaled := OrderStat.scaledAverage totalPrice totalVolume
  OrderStat.FitsInt (OrderStat.truncate scaled) ∧
    OrderStat.truncate scaled = OrderStat.truncate (totalPrice / totalVolume * 10000)

/-- A trade is not counted only if it is known or of no volume.  Where it is counted, the sums and the
average are as they would be without rounding. -/
def CountsTrade (stat : OrderStat) (trades : Finset (Trade Details)) (genTime : Int64)
    (t : Trade Details) : Prop :=
  if stat.tradeTime < genTime then
    AddsRight stat trades t ∧
      (0 < stat.addVolume t → CutsRight (stat.addPrice t) (stat.addVolume t))
  else t ∈ trades ∨ t.volume = 0

/-- An event that comes after others and brings a trade is counted as it should be, whatever becomes
of the averages that do not fit. -/
def Counts (orderId : UInt64) (es : List StatEvent) (e : StatEvent) : Prop :=
  ∀ t ∈ tradeOf orderId e, ∀ undefined,
    CountsTrade (statAfter undefined orderId es) (tradesOf orderId es) e.genTime t

/-! ## One event -/

variable {stat : OrderStat} {trades : Finset (Trade Details)} {t : Trade Details}

theorem tradesOf_append : tradesOf orderId (es ++ [e]) =
    match tradeOf orderId e with
    | none => tradesOf orderId es
    | some t => insert t (tradesOf orderId es) := by
  cases ht : tradeOf orderId e with
  | none => simp [tradesOf, ht]
  | some t =>
      ext t'
      simp [tradesOf, ht]

theorem volume_eq_zero_iff : t.volume = 0 ↔ (t.volume.toInt : ℚ) = 0 := by
  rw [Int.cast_eq_zero, ← Int64.toInt_zero, Int64.toInt_inj]

variable (trades t) in
/-- A trade that is known adds nothing. -/
theorem sums_insert (f : Trade Details → ℚ) :
    ∑ x ∈ insert t trades, f x = (∑ x ∈ trades, f x) + if t ∈ trades then 0 else f t := by
  by_cases hmem : t ∈ trades
  · simp [hmem]
  · simp [hmem, Finset.sum_insert hmem, add_comm]

/-- The doubles next to two numbers of four decimals differ if the first one fits an `int`. -/
theorem round_div_inj {m n : ℤ} (hm : OrderStat.FitsInt m)
    (h : Binary64.round ((m : ℚ) / 10000) = Binary64.round ((n : ℚ) / 10000)) : m = n := by
  have herr := Binary64.abs_round_sub_le_div ((m : ℚ) / 10000)
  have herr' := Binary64.abs_round_sub_le_div ((n : ℚ) / 10000)
  rw [h] at herr
  have htiny : (2 : ℚ) ^ (-1075 : ℤ) ≤ 1 / 2 ^ 53 :=
    (zpow_le_zpow_right₀ one_le_two (by norm_num)).trans_eq (by norm_num : (2 : ℚ) ^ (-53 : ℤ) = _)
  -- the two errors are smaller than the last decimal
  have hdiff : |(m : ℚ) - n| < 1 := by
    obtain ⟨hlo, hhi⟩ := hm
    have hbound : |(m : ℚ)| ≤ 2 ^ 31 := by
      exact_mod_cast abs_le.mpr ⟨hlo, hhi.le⟩
    have htriangle : |(n : ℚ)| ≤ |(m : ℚ)| + |(m : ℚ) - n| := by
      have := abs_sub_abs_le_abs_sub (n : ℚ) m
      rw [abs_sub_comm] at this
      linarith
    have hsum : |(m : ℚ) / 10000 - n / 10000| ≤
        |Binary64.round ((n : ℚ) / 10000) - m / 10000| +
          |Binary64.round ((n : ℚ) / 10000) - n / 10000| := by
      rw [abs_sub_comm _ ((m : ℚ) / 10000)]
      exact abs_sub_le _ _ _
    rw [← sub_div, abs_div] at hsum
    rw [abs_div] at herr herr'
    rw [abs_of_pos (show (0 : ℚ) < 10000 by norm_num)] at hsum herr herr'
    linarith
  have hlt : |m - n| < 1 := by exact_mod_cast hdiff
  exact sub_eq_zero.mp (Int.abs_lt_one_iff.mp hlt)

theorem fitsInt_toInt (undefined : ℚ → Int32) (x : ℚ) :
    OrderStat.FitsInt (OrderStat.toInt undefined x) := by
  unfold OrderStat.toInt
  split
  · assumption
  · exact ⟨Int32.le_toInt _, Int32.toInt_lt _⟩

/-- What becomes of a number that does not fit is right by chance only. -/
theorem forall_toInt_eq_iff {x : ℚ} {n : ℤ} :
    (∀ undefined, OrderStat.toInt undefined x = n) ↔
      OrderStat.FitsInt (OrderStat.truncate x) ∧ OrderStat.truncate x = n := by
  by_cases hfits : OrderStat.FitsInt (OrderStat.truncate x)
  · simp [OrderStat.toInt, hfits]
  · simp only [OrderStat.toInt, hfits, if_false, false_and, iff_false]
    intro hall
    have hzero := hall fun _ => 0
    have hone := hall fun _ => 1
    rw [← hone] at hzero
    exact absurd hzero (by decide)

/-- Statistics that are right stay so for a trade if and only if it is counted as it should be and
what is kept of the average is right. -/
theorem right_onTrade_iff (h : Right stat trades) :
    Right (stat.onTrade undefined e t) (insert t trades) ↔
      if stat.tradeTime < e.genTime then
        AddsRight stat trades t ∧ (0 < stat.addVolume t →
          OrderStat.toInt undefined
              (OrderStat.scaledAverage (stat.addPrice t) (stat.addVolume t)) =
            OrderStat.truncate (stat.addPrice t / stat.addVolume t * 10000))
      else t ∈ trades ∨ t.volume = 0 := by
  obtain ⟨hprice, hvolume, havg⟩ := h
  have hprice' := sums_insert trades t fun t => t.details.price * t.volume.toInt
  have hvolume' := sums_insert trades t fun t => (t.volume.toInt : ℚ)
  rw [← tradedPrice, ← tradedPrice, ← hprice] at hprice'
  rw [← tradedVolume, ← tradedVolume, ← hvolume] at hvolume'
  by_cases hcounted : stat.tradeTime < e.genTime
  · rw [if_pos hcounted, OrderStat.onTrade, if_pos hcounted]
    have hadds : AddsRight stat trades t ↔
        stat.addPrice t = tradedPrice (insert t trades) ∧
          stat.addVolume t = tradedVolume (insert t trades) := by
      rw [hprice', hvolume', AddsRight]
      by_cases hmem : t ∈ trades <;> simp [hmem]
    constructor
    · rintro ⟨hprice₁, hvolume₁, havg₁⟩
      refine ⟨hadds.mpr ⟨hprice₁, hvolume₁⟩, fun hpos => ?_⟩
      rw [← hprice₁, ← hvolume₁] at havg₁
      have hround := havg₁ hpos
      simp only [OrderStat.count, hpos, if_true] at hround
      exact round_div_inj (fitsInt_toInt _ _) hround
    · rintro ⟨hright, hcut⟩
      obtain ⟨hprice₁, hvolume₁⟩ := hadds.mp hright
      refine ⟨hprice₁, hvolume₁, ?_⟩
      rw [← hprice₁, ← hvolume₁]
      intro hpos
      simp only [OrderStat.count, hpos, if_true, hcut hpos]
  · rw [if_neg hcounted, OrderStat.onTrade, if_neg hcounted, volume_eq_zero_iff]
    constructor
    · rintro ⟨-, hvolume₁, -⟩
      by_cases hmem : t ∈ trades
      · exact .inl hmem
      · rw [hvolume', if_neg hmem] at hvolume₁
        right
        linarith
    · intro hknown
      have hsame : tradedPrice (insert t trades) = tradedPrice trades ∧
          tradedVolume (insert t trades) = tradedVolume trades := by
        rw [hprice', hvolume', hprice, hvolume]
        rcases hknown with hmem | hzero
        · simp [hmem]
        · simp [hzero]
      obtain ⟨hp, hv⟩ := hsame
      refine ⟨by rw [hp, hprice], by rw [hv, hvolume], ?_⟩
      rw [hp, hv]
      exact havg

/-- Every other event leaves statistics right. -/
theorem right_update_of_not_trade (h : Right stat trades) (he : ∀ t, e.data ≠ .trade t) :
    Right (stat.update undefined e) trades := by
  unfold OrderStat.update
  cases hdata : e.data with
  | orderInput i => exact ⟨h.totalPrice, h.totalVolume, h.avgPrice⟩
  | order o =>
      simp only [OrderStat.onOrder]
      split
      · exact ⟨h.totalPrice, h.totalVolume, h.avgPrice⟩
      · split <;> exact ⟨h.totalPrice, h.totalVolume, h.avgPrice⟩
  | trade t => exact absurd hdata (he t)

/-! ## Runs -/

/-- Which trades are counted does not depend on the averages. -/
theorem tradeTime_statAfter (undefined' : ℚ → Int32) :
    (statAfter undefined orderId es).tradeTime = (statAfter undefined' orderId es).tradeTime := by
  induction es using List.reverseRecOn with
  | nil => simp only [statAfter_nil]
  | append_singleton es e ih =>
      rw [statAfter_append, statAfter_append]
      split
      · unfold OrderStat.update
        cases e.data with
        | orderInput i => simpa only [OrderStat.tradeTime_onOrderInput] using ih
        | order o => simpa only [OrderStat.tradeTime_onOrder] using ih
        | trade t =>
            simp only [OrderStat.onTrade, ih]
            split
            · simp only [OrderStat.tradeTime_count]
            · exact ih
      · exact ih

/-- A trade keeps the statistics right, whatever becomes of averages that do not fit, if and only if it
is counted as it should be. -/
theorem forall_right_onTrade_iff {stat : (ℚ → Int32) → OrderStat}
    (h : ∀ undefined, Right (stat undefined) trades)
    (htime : ∀ undefined undefined', (stat undefined).tradeTime = (stat undefined').tradeTime) :
    (∀ undefined, Right ((stat undefined).onTrade undefined e t) (insert t trades)) ↔
      ∀ undefined, CountsTrade (stat undefined) trades e.genTime t := by
  have hprice : ∀ undefined undefined',
      (stat undefined).addPrice t = (stat undefined').addPrice t := by
    intro undefined undefined'
    simp only [OrderStat.addPrice, (h undefined).totalPrice, (h undefined').totalPrice]
  have hvolume : ∀ undefined undefined',
      (stat undefined).addVolume t = (stat undefined').addVolume t := by
    intro undefined undefined'
    simp only [OrderStat.addVolume, (h undefined).totalVolume, (h undefined').totalVolume]
  unfold CountsTrade
  simp only [right_onTrade_iff (h _)]
  constructor
  · intro hall undefined
    have hhere := hall undefined
    by_cases hcounted : (stat undefined).tradeTime < e.genTime
    · rw [if_pos hcounted] at hhere ⊢
      refine ⟨hhere.1, fun hpos => forall_toInt_eq_iff.mp fun undefined' => ?_⟩
      have hthere := hall undefined'
      rw [if_pos (by rwa [htime undefined' undefined])] at hthere
      rw [hprice undefined undefined', hvolume undefined undefined']
      rw [hvolume undefined undefined'] at hpos
      exact hthere.2 hpos
    · rw [if_neg hcounted] at hhere ⊢
      exact hhere
  · intro hall undefined
    have hhere := hall undefined
    by_cases hcounted : (stat undefined).tradeTime < e.genTime
    · rw [if_pos hcounted] at hhere ⊢
      exact ⟨hhere.1, fun hpos => forall_toInt_eq_iff.mpr (hhere.2 hpos) undefined⟩
    · rw [if_neg hcounted] at hhere ⊢
      exact hhere

/-- An event keeps the statistics of an order right if and only if it counts as it should. -/
theorem right_append_iff
    (h : ∀ undefined, Right (statAfter undefined orderId es) (tradesOf orderId es)) :
    (∀ undefined, Right (statAfter undefined orderId (es ++ [e])) (tradesOf orderId (es ++ [e]))) ↔
      Counts orderId es e := by
  simp only [statAfter_append, tradesOf_append, Counts]
  by_cases heq : e.data.orderId = orderId
  · simp only [if_pos heq]
    cases hdata : e.data with
    | trade t =>
        have horder : t.orderId = orderId := by
          rw [hdata] at heq
          exact heq
        have htrade : tradeOf orderId e = some t := by simp [tradeOf, hdata, horder]
        simp only [htrade, OrderStat.update, hdata, Option.mem_some_iff, forall_eq']
        exact forall_right_onTrade_iff h fun _ _ => tradeTime_statAfter _
    | _ =>
        have htrade : tradeOf orderId e = none := by simp [tradeOf, hdata]
        simp only [htrade, Option.mem_def, reduceCtorEq, false_implies, implies_true, iff_true]
        exact fun undefined => right_update_of_not_trade (h undefined) (by simp [hdata])
  · have htrade : tradeOf orderId e = none := by
      cases hdata : e.data with
      | trade t =>
          rw [hdata] at heq
          have hne : t.orderId ≠ orderId := heq
          simp [tradeOf, hdata, hne]
      | _ => simp [tradeOf, hdata]
    simp only [if_neg heq, htrade, Option.mem_def, reduceCtorEq, false_implies, implies_true,
      iff_true]
    exact h

/-- A trade of 100 at a price that comes at a time. -/
def exampleTraded (genTime : Int64) (tradeId : UInt64) (price : ℚ) : StatEvent :=
  ⟨genTime, 0, 10, .trade ⟨tradeId, 1, "", "", "600000", "SSE", .Stock, .Buy, 100,
    ⟨.Open, .Speculation, price, 0, 0⟩⟩⟩

def exampleUndefined (_ : ℚ) : Int32 := Int32.minValue

end Ledger

end Kungfu.Wingchun
