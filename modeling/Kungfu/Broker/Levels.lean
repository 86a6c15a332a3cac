import Mathlib.Algebra.BigOperators.Group.List.Basic
import Mathlib.Algebra.Order.Group.Int
import Mathlib.Algebra.Order.Ring.Rat
import Mathlib.Data.List.Pairwise
import Mathlib.Data.Rat.Floor
import Mathlib.Tactic.Linarith

/-!
# Price levels

One side of a simulated order book: the levels in the order of their prices, at most one at every
price.
-/

namespace Kungfu.Broker.Sim

structure OrderBookLevel where
  price : ℚ
  qty : Int64
  orderCount : Int64
  deriving DecidableEq, Repr

/-- `std::set` of levels with `LevelCompare`. -/
structure Levels where
  toList : List OrderBookLevel
  sorted : toList.Pairwise fun a b => a.price < b.price

namespace Levels

instance : Membership OrderBookLevel Levels := ⟨fun levels level => level ∈ levels.toList⟩

instance : EmptyCollection Levels := ⟨⟨[], .nil⟩⟩

variable {levels : Levels} {level l : OrderBookLevel} {price : ℚ} {qty : Int64}

theorem mem_iff : l ∈ levels ↔ l ∈ levels.toList := Iff.rfl

@[simp] theorem notMem_empty : l ∉ (∅ : Levels) := List.not_mem_nil

/-- `find`. -/
def find? (levels : Levels) (price : ℚ) : Option OrderBookLevel :=
  levels.toList.find? fun level => level.price = price

theorem price_of_find? (h : levels.find? price = some level) : level ∈ levels ∧ level.price = price :=
  ⟨List.mem_of_find?_eq_some h, by simpa using List.find?_some h⟩

theorem price_ne_of_find? (h : levels.find? price = none) (hl : l ∈ levels) : l.price ≠ price := by
  simpa using List.find?_eq_none.mp h l hl

/-- There is one level at a price. -/
theorem eq_of_price (h : level ∈ levels) (hl : l ∈ levels) (hprice : level.price = l.price) :
    level = l := by
  by_contra hne
  have : Std.Symm fun a b : OrderBookLevel => a.price ≠ b.price := ⟨fun _ _ h => h.symm⟩
  have hpairwise := levels.sorted.imp (S := fun a b => a.price ≠ b.price) fun hlt => hlt.ne
  exact hpairwise.forall h hl hne hprice

theorem find?_eq_some_iff : levels.find? price = some level ↔ level ∈ levels ∧ level.price = price := by
  constructor
  · exact price_of_find?
  · rintro ⟨hlevel, rfl⟩
    cases hfind : levels.find? level.price with
    | none => exact absurd rfl (price_ne_of_find? hfind hlevel)
    | some l =>
        obtain ⟨hl, hprice⟩ := price_of_find? hfind
        rw [eq_of_price hl hlevel hprice]

/-! ## Insertion -/

/-- The place of a level is before the first one at a higher price. -/
def insertList (level : OrderBookLevel) : List OrderBookLevel → List OrderBookLevel
  | [] => [level]
  | l :: ls =>
      if level.price < l.price then level :: l :: ls
      else if level.price = l.price then l :: ls
      else l :: insertList level ls

theorem mem_of_mem_insertList {ls : List OrderBookLevel} (h : l ∈ insertList level ls) :
    l = level ∨ l ∈ ls := by
  induction ls with
  | nil => exact .inl (List.mem_singleton.mp h)
  | cons l' ls ih =>
      unfold insertList at h
      split at h
      · exact List.mem_cons.mp h
      · split at h
        · exact .inr h
        · rcases List.mem_cons.mp h with rfl | h
          · exact .inr List.mem_cons_self
          · exact (ih h).imp_right (List.mem_cons_of_mem l')

theorem sorted_insertList {ls : List OrderBookLevel} (h : ls.Pairwise fun a b => a.price < b.price) :
    (insertList level ls).Pairwise fun a b => a.price < b.price := by
  induction ls with
  | nil => exact List.pairwise_singleton _ _
  | cons l ls ih =>
      obtain ⟨hl, hls⟩ := List.pairwise_cons.mp h
      unfold insertList
      split
      · rename_i hlt
        refine List.pairwise_cons.mpr ⟨?_, h⟩
        intro l' hl'
        rcases List.mem_cons.mp hl' with rfl | hl'
        · exact hlt
        · exact hlt.trans (hl l' hl')
      · split
        · exact h
        · rename_i hnot hne
          refine List.pairwise_cons.mpr ⟨?_, ih hls⟩
          intro l' hl'
          rcases mem_of_mem_insertList hl' with rfl | hl'
          · exact lt_of_le_of_ne (not_lt.mp hnot) (Ne.symm hne)
          · exact hl l' hl'

theorem perm_insertList {ls : List OrderBookLevel} (h : ∀ l ∈ ls, l.price ≠ level.price) :
    (insertList level ls).Perm (level :: ls) := by
  induction ls with
  | nil => exact .refl _
  | cons l ls ih =>
      unfold insertList
      split
      · exact .refl _
      · rw [if_neg (h l List.mem_cons_self).symm]
        exact ((ih fun l' hl' => h l' (List.mem_cons_of_mem l hl')).cons l).trans (.swap level l ls)

/-- `insert`, which leaves a level alone that is there already. -/
def insert (levels : Levels) (level : OrderBookLevel) : Levels :=
  ⟨insertList level levels.toList, sorted_insertList levels.sorted⟩

theorem perm_insert (h : ∀ l ∈ levels, l.price ≠ level.price) :
    (levels.insert level).toList.Perm (level :: levels.toList) :=
  perm_insertList h

/-! ## Removal -/

/-- `erase` of the level at a price. -/
def erase (levels : Levels) (price : ℚ) : Levels :=
  ⟨levels.toList.filter fun level => level.price ≠ price, levels.sorted.filter _⟩

@[simp] theorem mem_erase : l ∈ levels.erase price ↔ l ∈ levels ∧ l.price ≠ price := by
  simp [mem_iff, erase]

/-- `erase` of the first level. -/
def eraseFirst (levels : Levels) : Levels := ⟨levels.toList.tail, levels.sorted.tail⟩

/-- `erase` of the last level. -/
def eraseLast (levels : Levels) : Levels :=
  ⟨levels.toList.dropLast, levels.sorted.sublist (List.dropLast_sublist _)⟩

theorem perm_erase (h : level ∈ levels) :
    levels.toList.Perm (level :: (levels.erase level.price).toList) := by
  obtain ⟨before, after, hlist⟩ := List.append_of_mem h
  have hsorted := levels.sorted
  rw [hlist] at hsorted
  obtain ⟨-, hafter, hbefore⟩ := List.pairwise_append.mp hsorted
  have hbefore' : before.filter (fun l => l.price ≠ level.price) = before := by
    refine List.filter_eq_self.mpr fun l hl => ?_
    simpa using (hbefore l hl level List.mem_cons_self).ne
  have hafter' : after.filter (fun l => l.price ≠ level.price) = after := by
    refine List.filter_eq_self.mpr fun l hl => ?_
    simpa using ((List.pairwise_cons.mp hafter).1 l hl).ne'
  have herase : (levels.erase level.price).toList = before ++ after := by
    change levels.toList.filter (fun l => l.price ≠ level.price) = _
    rw [hlist, List.filter_append, List.filter_cons_of_neg (by simp), hbefore', hafter']
  rw [herase, hlist]
  exact List.perm_middle

/-! ## The best levels -/

theorem price_le_of_getLast? (h : levels.toList.getLast? = some level) (hl : l ∈ levels) :
    l.price ≤ level.price := by
  obtain ⟨ls, hlist⟩ := List.getLast?_eq_some_iff.mp h
  have hsorted := levels.sorted
  rw [mem_iff, hlist] at hl
  rw [hlist] at hsorted
  rcases List.mem_append.mp hl with hl | hl
  · exact ((List.pairwise_append.mp hsorted).2.2 l hl level (List.mem_singleton_self _)).le
  · rw [List.mem_singleton.mp hl]

theorem le_price_of_head? (h : levels.toList.head? = some level) (hl : l ∈ levels) :
    level.price ≤ l.price := by
  obtain ⟨ls, hlist⟩ := List.head?_eq_some_iff.mp h
  have hsorted := levels.sorted
  rw [mem_iff, hlist] at hl
  rw [hlist] at hsorted
  rcases List.mem_cons.mp hl with rfl | hl
  · exact le_rfl
  · exact ((List.pairwise_cons.mp hsorted).1 l hl).le

/-! ## Quantities -/

/-- The quantity on a side. -/
def total (levels : Levels) : ℤ := (levels.toList.map fun level => level.qty.toInt).sum

/-- The quantity at a price. -/
def qtyAt (levels : Levels) (price : ℚ) : ℤ := ((levels.find? price).map (·.qty.toInt)).getD 0

/-- A quantity is taken from a level, which goes with the last of it. -/
def take (levels : Levels) (level : OrderBookLevel) (qty : Int64) : Levels :=
  if level.qty = qty then levels.erase level.price
  else (levels.erase level.price).insert { level with qty := level.qty - qty }

/-- All quantities are positive. -/
def Positive (levels : Levels) : Prop := ∀ l ∈ levels, 0 < l.qty.toInt

theorem total_of_perm {ls : List OrderBookLevel} (h : levels.toList.Perm ls) :
    levels.total = (ls.map fun level => level.qty.toInt).sum :=
  (h.map _).sum_eq

theorem total_erase (h : level ∈ levels) :
    levels.total = level.qty.toInt + (levels.erase level.price).total := by
  rw [total_of_perm (perm_erase h), List.map_cons, List.sum_cons, total]

theorem length_erase (h : level ∈ levels) :
    levels.toList.length = (levels.erase level.price).toList.length + 1 := by
  rw [(perm_erase h).length_eq, List.length_cons]

/-- A smaller quantity is left than there was. -/
theorem toInt_sub_qty {a b : Int64} (hb : 0 ≤ b.toInt) (hle : b.toInt ≤ a.toInt) :
    (a - b).toInt = a.toInt - b.toInt := by
  have ha := a.toInt_lt
  have ha' := a.le_toInt
  rw [Int64.toInt_sub, Int.bmod_eq_of_le] <;> omega

theorem perm_take (hne : level.qty ≠ qty) :
    (levels.take level qty).toList.Perm
      ({ level with qty := level.qty - qty } :: (levels.erase level.price).toList) := by
  rw [take, if_neg hne]
  exact perm_insert fun l hl => (mem_erase.mp hl).2

section Take

variable (h : level ∈ levels) (hqty : 0 < qty.toInt) (hle : qty.toInt ≤ level.qty.toInt)

include h hqty hle

theorem total_take : (levels.take level qty).total = levels.total - qty.toInt := by
  rw [total_erase h]
  by_cases hall : level.qty = qty
  · rw [take, if_pos hall, hall]
    omega
  · rw [total_of_perm (perm_take hall), List.map_cons, List.sum_cons, total,
      toInt_sub_qty hqty.le hle]
    omega

omit h hqty hle in
theorem mem_take (hl : l ∈ levels.take level qty) :
    (l ∈ levels ∧ l.price ≠ level.price) ∨
      level.qty ≠ qty ∧ l = { level with qty := level.qty - qty } := by
  by_cases hall : level.qty = qty
  · rw [take, if_pos hall] at hl
    exact .inl (mem_erase.mp hl)
  · rw [mem_iff, (perm_take hall).mem_iff, List.mem_cons] at hl
    rcases hl with rfl | hl
    · exact .inr ⟨hall, rfl⟩
    · exact .inl (mem_erase.mp hl)

omit h in
theorem positive_take (hpositive : levels.Positive) : (levels.take level qty).Positive := by
  intro l hl
  rcases mem_take hl with hl | ⟨hne, rfl⟩
  · exact hpositive l hl.1
  · have hne' : level.qty.toInt ≠ qty.toInt := fun heq => hne (Int64.toInt_inj.mp heq)
    simp only [toInt_sub_qty hqty.le hle]
    omega

omit hqty hle in
theorem length_take : (levels.take level qty).toList.length =
    levels.toList.length - if level.qty = qty then 1 else 0 := by
  have hlength := length_erase h
  by_cases hall : level.qty = qty
  · rw [take, if_pos hall, if_pos hall]
    omega
  · rw [(perm_take hall).length_eq, List.length_cons, if_neg hall]
    omega

end Take

end Levels

end Kungfu.Broker.Sim
