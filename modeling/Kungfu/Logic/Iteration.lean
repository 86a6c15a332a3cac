import Mathlib.Data.Finmap
import Mathlib.Data.List.Sort

/-!
# Iteration over maps

A loop over an unordered map sees every entry once, in an order that nothing promises.
-/

namespace Kungfu.Logic

variable {α : Type*} {β : α → Type*}

/-- The elements of a multiset in order, by a sort that is recursive on lists. -/
def sortMultiset [LinearOrder α] (s : Multiset α) : List α :=
  Quotient.liftOn s (List.insertionSort (· ≤ ·)) fun l l' h =>
    ((List.perm_insertionSort _ l).trans (h.trans (List.perm_insertionSort _ l').symm)).eq_of_pairwise'
      (List.pairwise_insertionSort _ l) (List.pairwise_insertionSort _ l')

@[simp] theorem coe_sortMultiset [LinearOrder α] (s : Multiset α) :
    (sortMultiset s : Multiset α) = s := by
  induction s using Quotient.inductionOn with
  | h l => exact Quotient.sound (List.perm_insertionSort _ l)

@[simp] theorem mem_sortMultiset [LinearOrder α] (s : Multiset α) {a : α} :
    a ∈ sortMultiset s ↔ a ∈ s := by
  rw [← Multiset.mem_coe, coe_sortMultiset]

variable [DecidableEq α]

/-- An order for the entries of maps. -/
structure Iteration (β : α → Type*) where
  entries : Finmap β → List (Sigma β)
  nodup : ∀ m, (entries m).Nodup
  mem_entries : ∀ m e, e ∈ entries m ↔ m.lookup e.1 = some e.2

namespace Iteration

/-- No key is met twice. -/
theorem nodup_keys (order : Iteration β) (m : Finmap β) : ((order.entries m).map (·.1)).Nodup := by
  refine (order.nodup m).map_on ?_
  rintro ⟨k, b⟩ hb ⟨k', b'⟩ hb' rfl
  have h := (order.mem_entries m _).mp hb
  rw [(order.mem_entries m _).mp hb'] at h
  cases h
  rfl

omit [DecidableEq α] in
theorem nodup_entries (m : Finmap β) : m.entries.Nodup :=
  Multiset.Nodup.of_map Sigma.fst (Multiset.nodup_keys.mpr m.nodupKeys)

/-- The entries that are met are those of the map. -/
theorem coe_entries (order : Iteration β) (m : Finmap β) :
    (order.entries m : Multiset (Sigma β)) = m.entries := by
  have hnodup := Multiset.coe_nodup.mpr (order.nodup m)
  refine (Multiset.Nodup.ext hnodup (nodup_entries m)).mpr fun e => ?_
  rw [Multiset.mem_coe, order.mem_entries, Finmap.lookup_eq_some_iff]

/-- The entries of a map, by their keys. -/
def sortedEntries [LinearOrder α] (m : Finmap β) : List (Sigma β) :=
  (sortMultiset m.keys.val).filterMap fun k => (m.lookup k).map (Sigma.mk k)

theorem mem_sortedEntries [LinearOrder α] (m : Finmap β) (e : Sigma β) :
    e ∈ sortedEntries m ↔ m.lookup e.1 = some e.2 := by
  simp only [sortedEntries, List.mem_filterMap, mem_sortMultiset, Finset.mem_val, Finmap.mem_keys,
    Option.map_eq_some_iff]
  constructor
  · rintro ⟨k, -, b, hb, rfl⟩
    exact hb
  · intro h
    exact ⟨e.1, Finmap.mem_of_lookup_eq_some h, e.2, h, rfl⟩

theorem nodup_sortedEntries [LinearOrder α] (m : Finmap β) : (sortedEntries m).Nodup := by
  have hnodup : (sortMultiset m.keys.val).Nodup := by
    rw [← Multiset.coe_nodup, coe_sortMultiset]
    exact m.keys.nodup
  apply List.Nodup.filterMap _ hnodup
  intro k k' e hk hk'
  simp only [Option.mem_def, Option.map_eq_some_iff] at hk hk'
  obtain ⟨b, -, rfl⟩ := hk
  obtain ⟨b', -, h⟩ := hk'
  exact (congrArg Sigma.fst h).symm

/-- The order of the keys. -/
def sorted [LinearOrder α] : Iteration β := ⟨sortedEntries, nodup_sortedEntries, mem_sortedEntries⟩

end Iteration

end Kungfu.Logic
