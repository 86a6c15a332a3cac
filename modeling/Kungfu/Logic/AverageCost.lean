import Mathlib.Algebra.Order.Field.Basic
import Mathlib.Data.List.Induction
import Mathlib.Tactic.FieldSimp
import Mathlib.Tactic.Ring

/-!
# Holdings at their average cost

A holding of something that is bought and sold at changing prices.  A purchase averages its price
into the cost of what is held, and a sale realizes the difference between its price and that cost.
What was realized, less the cost of what is still held, is the money that came in less the money
that was spent, whatever the prices were.
-/

namespace AverageCost

variable (K : Type*)

structure Holding where
  volume : K
  averageCost : K
  realized : K

/-- A purchase or a sale of a volume at a price. -/
inductive Deal
  | buy (volume price : K)
  | sell (volume price : K)

variable {K} [Field K]

namespace Deal

/-- What the deal adds to the volume that is held. -/
def volumeChange : Deal K → K
  | buy volume _ => volume
  | sell volume _ => -volume

/-- The money that the deal brings in. -/
def income : Deal K → K
  | buy volume price => -(price * volume)
  | sell volume price => price * volume

end Deal

namespace Holding

def buy (volume price : K) (h : Holding K) : Holding K :=
  { h with
    volume := h.volume + volume
    averageCost := (h.averageCost * h.volume + price * volume) / (h.volume + volume) }

def sell (volume price : K) (h : Holding K) : Holding K :=
  { h with
    volume := h.volume - volume
    realized := h.realized + (price - h.averageCost) * volume }

def apply (h : Holding K) : Deal K → Holding K
  | .buy volume price => h.buy volume price
  | .sell volume price => h.sell volume price

/-- One deal after another. -/
def run (h : Holding K) (deals : List (Deal K)) : Holding K := deals.foldl apply h

/-- What was realized, less the cost of what is held. -/
def balance (h : Holding K) : K := h.realized - h.averageCost * h.volume

/-- The profit that is realized or would be at a price. -/
def gain (price : K) (h : Holding K) : K := h.realized + (price - h.averageCost) * h.volume

/-- A deal after which a purchase leaves something to average over. -/
def Averages (h : Holding K) : Deal K → Prop
  | .buy volume _ => h.volume + volume ≠ 0
  | .sell _ _ => True

variable {h : Holding K} {deal : Deal K}

@[simp] theorem run_concat (deals : List (Deal K)) (deal : Deal K) :
    h.run (deals ++ [deal]) = (h.run deals).apply deal := by
  simp [run]

theorem gain_eq (price : K) (h : Holding K) : h.gain price = h.balance + h.volume * price := by
  simp only [gain, balance]
  ring

theorem volume_apply : (h.apply deal).volume = h.volume + deal.volumeChange := by
  cases deal with
  | buy volume price => rfl
  | sell volume price => exact sub_eq_add_neg ..

/-- A deal changes the balance by its money. -/
theorem balance_apply (haverages : h.Averages deal) :
    (h.apply deal).balance = h.balance + deal.income := by
  cases deal with
  | buy volume price =>
      have hne : h.volume + volume ≠ 0 := haverages
      simp only [balance, apply, buy, Deal.income]
      rw [div_mul_cancel₀ _ hne]
      ring
  | sell volume price =>
      simp only [balance, apply, sell, Deal.income]
      ring

/-! ## Runs -/

/-- Every purchase of the deals leaves something to average over. -/
def AllAverage (h : Holding K) (deals : List (Deal K)) : Prop :=
  ∀ done deal, done ++ [deal] <+: deals → (h.run done).Averages deal

theorem AllAverage.of_prefix {deals done : List (Deal K)} (hall : h.AllAverage deals)
    (hdone : done <+: deals) : h.AllAverage done :=
  fun before deal hbefore => hall before deal (hbefore.trans hdone)

theorem volume_run (deals : List (Deal K)) :
    (h.run deals).volume = h.volume + (deals.map Deal.volumeChange).sum := by
  induction deals using List.reverseRecOn with
  | nil => simp [run]
  | append_singleton deals deal ih =>
      rw [run_concat, volume_apply, ih]
      simp [add_assoc]

/-- The balance of a holding is the money that came in. -/
theorem balance_run {deals : List (Deal K)} (hall : h.AllAverage deals) :
    (h.run deals).balance = h.balance + (deals.map Deal.income).sum := by
  induction deals using List.reverseRecOn with
  | nil => simp [run]
  | append_singleton deals deal ih =>
      rw [run_concat, balance_apply (hall deals deal (List.prefix_refl _)),
        ih (hall.of_prefix (List.prefix_append ..))]
      simp [add_assoc]

/-- The profit of a holding at a price is the money that came in and the value of what is held. -/
theorem gain_run {deals : List (Deal K)} (hall : h.AllAverage deals) (price : K) :
    (h.run deals).gain price =
      h.balance + (deals.map Deal.income).sum + (h.run deals).volume * price := by
  rw [gain_eq, balance_run hall]

/-- Where nothing is sold that is not held, every purchase leaves something to average over. -/
theorem allAverage_of_covered [LinearOrder K] [IsStrictOrderedRing K] {deals : List (Deal K)}
    (hcovered : ∀ done, done <+: deals → 0 ≤ (h.run done).volume)
    (hpositive : ∀ volume price, .buy volume price ∈ deals → 0 < volume) : h.AllAverage deals := by
  intro done deal hdone
  cases deal with
  | sell volume price => trivial
  | buy volume price =>
      have hheld := hcovered done ((List.prefix_append ..).trans hdone)
      have hvolume := hpositive volume price (hdone.subset (by simp))
      exact (add_pos_of_nonneg_of_pos hheld hvolume).ne'

end Holding

end AverageCost
