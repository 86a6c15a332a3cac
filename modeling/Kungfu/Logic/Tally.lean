import Mathlib.Algebra.BigOperators.Group.Finset.Piecewise
import Mathlib.Algebra.Order.BigOperators.Group.Finset

/-!
# Sums over a list by key

Entries of several keys are mixed in one list.  The sum over the list is the sum over the
keys of what each key adds up to, however the entries are mixed.
-/

namespace Tally

variable {α κ M : Type} [DecidableEq κ] (key : α → κ)

/-- The entries of a key, in their order. -/
def entries (k : κ) (xs : List α) : List α := xs.filter (key · = k)

@[simp] theorem entries_nil (k : κ) : entries key k [] = [] := rfl

theorem entries_cons (k : κ) (x : α) (xs : List α) :
    entries key k (x :: xs) = if key x = k then x :: entries key k xs else entries key k xs := by
  by_cases h : key x = k <;> simp [entries, h]

@[simp] theorem entries_append (k : κ) (xs ys : List α) :
    entries key k (xs ++ ys) = entries key k xs ++ entries key k ys :=
  List.filter_append ..

theorem mem_entries {k : κ} {x : α} {xs : List α} : x ∈ entries key k xs ↔ x ∈ xs ∧ key x = k := by
  simp [entries]

/-- The first occurrence of an entry splits the entries of its key, too. -/
theorem entries_append_cons (xs ys : List α) (x : α) :
    entries key (key x) (xs ++ x :: ys) =
      entries key (key x) xs ++ x :: entries key (key x) ys := by
  rw [entries_append, entries_cons, if_pos rfl]

variable [AddCommMonoid M] (f : α → M)

/-- What a key adds up to. -/
def total (k : κ) (xs : List α) : M := ((entries key k xs).map f).sum

@[simp] theorem total_append (k : κ) (xs ys : List α) :
    total key f k (xs ++ ys) = total key f k xs + total key f k ys := by
  simp [total]

theorem total_cons (k : κ) (x : α) (xs : List α) :
    total key f k (x :: xs) = (if key x = k then f x else 0) + total key f k xs := by
  by_cases h : key x = k <;> simp [total, entries_cons, h]

theorem total_flatMap {β : Type} (g : β → List α) (k : κ) (ys : List β) :
    total key f k (ys.flatMap g) = (ys.map fun y => total key f k (g y)).sum := by
  induction ys with
  | nil => rfl
  | cons y ys ih => rw [List.flatMap_cons, total_append, ih, List.map_cons, List.sum_cons]

/-- A key without entries adds up to nothing. -/
theorem total_of_notMem {k : κ} {xs : List α} (h : ∀ x ∈ xs, key x ≠ k) : total key f k xs = 0 := by
  have hentries : entries key k xs = [] := by
    apply List.filter_eq_nil_iff.mpr
    intro x hx
    simpa using h x hx
  simp [total, hentries]

/-- The sum over a list, by key. -/
theorem sum_eq_sum_total {xs : List α} {ks : Finset κ} (hks : ∀ x ∈ xs, key x ∈ ks) :
    (xs.map f).sum = ∑ k ∈ ks, total key f k xs := by
  induction xs with
  | nil => simp [total]
  | cons x xs ih =>
      have hx : key x ∈ ks := hks x List.mem_cons_self
      have hsum := ih fun y hy => hks y (List.mem_cons_of_mem x hy)
      simp only [total_cons, Finset.sum_add_distrib, Finset.sum_ite_eq, hx, if_true]
      rw [List.map_cons, List.sum_cons, hsum]

/-- If every key adds up to nothing, so does the list. -/
theorem sum_eq_zero {xs : List α} (h : ∀ x ∈ xs, total key f (key x) xs = 0) :
    (xs.map f).sum = 0 := by
  rw [sum_eq_sum_total key f]
  · apply Finset.sum_eq_zero
    intro k hk
    obtain ⟨x, hx, rfl⟩ := List.mem_map.mp (List.mem_toFinset.mp hk)
    exact h x hx
  · intro x hx
    exact List.mem_toFinset.mpr (List.mem_map_of_mem hx)

/-- If every key adds up to the same, so does the list. -/
theorem sum_congr {g : α → M} {xs : List α}
    (h : ∀ x ∈ xs, total key f (key x) xs = total key g (key x) xs) :
    (xs.map f).sum = (xs.map g).sum := by
  have hkeys : ∀ x ∈ xs, key x ∈ (xs.map key).toFinset := fun x hx =>
    List.mem_toFinset.mpr (List.mem_map_of_mem hx)
  rw [sum_eq_sum_total key f hkeys, sum_eq_sum_total key g hkeys]
  refine Finset.sum_congr rfl fun k hk => ?_
  obtain ⟨x, hx, rfl⟩ := List.mem_map.mp (List.mem_toFinset.mp hk)
  exact h x hx

/-- A key adds up to its one entry that counts. -/
theorem total_eq_of_unique {xs : List α} (hxs : xs.Nodup) {x : α} (hx : x ∈ xs)
    (hzero : ∀ y ∈ xs, key y = key x → y ≠ x → f y = 0) : total key f (key x) xs = f x := by
  classical
  have hmem : x ∈ entries key (key x) xs := (mem_entries key).mpr ⟨hx, rfl⟩
  have hcount := List.count_eq_one_of_mem (hxs.filter _) hmem
  rw [total, List.sum_map_eq_nsmul_single x f, entries, hcount, one_nsmul]
  intro y hne hy
  obtain ⟨hy, hkey⟩ := (mem_entries key).mp hy
  exact hzero y hy hkey hne

section Ordered

variable {N : Type} [AddCommMonoid N] [PartialOrder N] [IsOrderedAddMonoid N] (g : α → N)

/-- If no key adds up to less than nothing, neither does the list. -/
theorem sum_nonneg {xs : List α} (h : ∀ x ∈ xs, 0 ≤ total key g (key x) xs) :
    0 ≤ (xs.map g).sum := by
  rw [sum_eq_sum_total key g]
  · apply Finset.sum_nonneg
    intro k hk
    obtain ⟨x, hx, rfl⟩ := List.mem_map.mp (List.mem_toFinset.mp hk)
    exact h x hx
  · intro x hx
    exact List.mem_toFinset.mpr (List.mem_map_of_mem hx)

end Ordered

end Tally
