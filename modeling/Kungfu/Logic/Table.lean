import Mathlib.Data.List.AList

/-!
# Tables

Operations of hash maps on association lists: an entry is made only if its key is new, the
entries that meet a condition are erased, and all entries are changed.
-/

namespace Table

variable {α : Type*} {β : α → Type*} {a a' : α} {b : β a} {table : AList β}

theorem mem_of_mem_entries {entry : Sigma β} (h : entry ∈ table.entries) : entry.1 ∈ table :=
  AList.mem_keys.mpr (List.mem_keys_of_mem h)

theorem exists_of_mem (h : a ∈ table) : ∃ b, ⟨a, b⟩ ∈ table.entries :=
  List.exists_of_mem_keys (AList.mem_keys.mp h)

/-! ## Erasing -/

/-- The entries that meet the condition are erased. -/
def eraseIf (p : Sigma β → Prop) [DecidablePred p] (table : AList β) : AList β :=
  ⟨table.entries.filter (¬ p ·), table.nodupKeys.sublist List.filter_sublist⟩

@[simp] theorem mem_entries_eraseIf {p : Sigma β → Prop} [DecidablePred p] {entry : Sigma β} :
    entry ∈ (eraseIf p table).entries ↔ entry ∈ table.entries ∧ ¬ p entry := by
  simp [eraseIf]

/-! ## Changing entries -/

/-- Every entry is changed. -/
def map {γ : α → Type*} (f : ∀ a, β a → γ a) (table : AList β) : AList γ :=
  ⟨table.entries.map (.map id f), table.nodupKeys.map₂ f⟩

/-! ## Making entries -/

variable [DecidableEq α]

@[simp] theorem lookup_map {γ : α → Type*} (f : ∀ a, β a → γ a) :
    (map f table).lookup a = (table.lookup a).map (f a) :=
  List.dlookup_map₂ a

/-- An entry is made unless there is one with its key. -/
def tryEmplace (a : α) (b : β a) (table : AList β) : AList β :=
  if a ∈ table then table else table.insert a b

@[simp] theorem mem_tryEmplace : a' ∈ tryEmplace a b table ↔ a' = a ∨ a' ∈ table := by
  unfold tryEmplace
  split
  · rename_i h
    constructor
    · exact Or.inr
    · rintro (rfl | h')
      · exact h
      · exact h'
  · rw [AList.mem_insert]

/-! ## What is found -/

section Lookup

variable {γ : Type*} {t : AList fun _ : α => γ} {c : γ}

theorem lookup_insert_eq : (t.insert a c).lookup = Function.update t.lookup a (some c) := by
  funext a'
  by_cases h : a' = a
  · subst h
    simp
  · simp [h]

theorem lookup_erase_eq : (t.erase a).lookup = Function.update t.lookup a none := by
  funext a'
  by_cases h : a' = a
  · subst h
    simp
  · simp [h]

theorem lookup_tryEmplace_eq (h : a ∉ t) :
    (tryEmplace a c t).lookup = Function.update t.lookup a (some c) := by
  rw [tryEmplace, if_neg h, lookup_insert_eq]

theorem lookup_insert_apply : (t.insert a c).lookup a' = if a' = a then some c else t.lookup a' := by
  rw [congrFun lookup_insert_eq a', Function.update_apply]

theorem lookup_erase_apply : (t.erase a).lookup a' = if a' = a then none else t.lookup a' := by
  rw [congrFun lookup_erase_eq a', Function.update_apply]

theorem lookup_tryEmplace_apply :
    (tryEmplace a c t).lookup a' = if a' = a then some ((t.lookup a).getD c) else t.lookup a' := by
  by_cases h : a ∈ t
  · obtain ⟨c', hc'⟩ := Option.isSome_iff_exists.mp (AList.lookup_isSome.mpr h)
    rw [tryEmplace, if_pos h, hc']
    split
    · rename_i ha
      rw [ha, hc', Option.getD_some]
    · rfl
  · rw [congrFun (lookup_tryEmplace_eq h) a', Function.update_apply, AList.lookup_eq_none.mpr h,
      Option.getD_none]

end Lookup

theorem tryEmplace_of_mem (h : a ∈ table) : tryEmplace a b table = table := if_pos h

theorem mem_entries_tryEmplace {entry : Sigma β} :
    entry ∈ (tryEmplace a b table).entries ↔
      entry ∈ table.entries ∨ a ∉ table ∧ entry = ⟨a, b⟩ := by
  unfold tryEmplace
  by_cases h : a ∈ table
  · simp [h]
  · rw [if_neg h, AList.entries_insert_of_notMem h, List.mem_cons]
    simp [h, or_comm]

end Table
