import Mathlib.Algebra.BigOperators.Group.List.Basic
import Mathlib.Algebra.GroupWithZero.Nat
import Mathlib.Data.List.Pairwise
import Mathlib.Logic.Function.Basic

/-!
# Reading several logs through one selected head

Each key has a log and a position in it.  A reader repeatedly selects a key and takes the
element at its position.  Whatever the selection does, what is taken from one key is a
consecutive stretch of its log: nothing is lost, repeated or reordered.  If the selection
always takes a least head and every log is in order, the whole sequence is in order.
-/

namespace Merge

variable {κ α τ : Type}

/-! ## Selection -/

section Selection

variable [LE τ] [DecidableLE τ]

/-- Go through the heads and keep the last one that is not later than those before it,
starting from a bound; the old selection stays if no head is within the bound. -/
def pick : List (κ × τ) → τ → Option κ → Option κ
  | [], _, old => old
  | (k, t) :: heads, bound, old =>
      if t ≤ bound then pick heads t (some k) else pick heads bound old

theorem pick_of_forall_not_le {heads : List (κ × τ)} {bound : τ} (old : Option κ)
    (h : ∀ p ∈ heads, ¬ p.2 ≤ bound) : pick heads bound old = old := by
  induction heads with
  | nil => rfl
  | cons p heads ih =>
      rw [pick, if_neg (h p List.mem_cons_self)]
      exact ih fun q hq => h q (List.mem_cons_of_mem p hq)

/-- If some head is within the bound, a least one is selected. -/
theorem exists_pick [Std.IsLinearPreorder τ] {heads : List (κ × τ)} {bound : τ} (old : Option κ)
    (h : ∃ p ∈ heads, p.2 ≤ bound) :
    ∃ k t, (k, t) ∈ heads ∧ t ≤ bound ∧ (∀ p ∈ heads, t ≤ p.2) ∧
      pick heads bound old = some k := by
  induction heads generalizing bound old with
  | nil => simp at h
  | cons p heads ih =>
      obtain ⟨k, t⟩ := p
      rw [pick]
      by_cases ht : t ≤ bound
      · rw [if_pos ht]
        by_cases hrest : ∃ p ∈ heads, p.2 ≤ t
        · obtain ⟨k', t', hmem, hle, hmin, hpick⟩ := ih (some k) hrest
          refine ⟨k', t', List.mem_cons_of_mem _ hmem, Std.le_trans hle ht, ?_, hpick⟩
          rintro q hq
          rcases List.mem_cons.mp hq with rfl | hq
          · exact hle
          · exact hmin q hq
        · have hlater : ∀ p ∈ heads, ¬ p.2 ≤ t := fun p hp hle => hrest ⟨p, hp, hle⟩
          refine ⟨k, t, List.mem_cons_self, ht, ?_, pick_of_forall_not_le _ hlater⟩
          rintro q hq
          rcases List.mem_cons.mp hq with rfl | hq
          · exact Std.le_refl t
          · exact (Std.le_total (a := t) (b := q.2)).resolve_right (hlater q hq)
      · rw [if_neg ht]
        have hrest : ∃ p ∈ heads, p.2 ≤ bound := by
          obtain ⟨q, hq, hle⟩ := h
          rcases List.mem_cons.mp hq with rfl | hq
          · exact absurd hle ht
          · exact ⟨q, hq, hle⟩
        obtain ⟨k', t', hmem, hle, hmin, hpick⟩ := ih old hrest
        refine ⟨k', t', List.mem_cons_of_mem _ hmem, hle, ?_, hpick⟩
        rintro q hq
        rcases List.mem_cons.mp hq with rfl | hq
        · exact Std.le_trans hle ((Std.le_total (a := t) (b := bound)).resolve_left ht)
        · exact hmin q hq

/-- The head of `k` is within the bound and a least one, and the last of the least. -/
def LastLeast (heads : List (κ × τ)) (bound : τ) (k : κ) : Prop :=
  ∃ before t later, heads = before ++ (k, t) :: later ∧ t ≤ bound ∧ (∀ p ∈ before, t ≤ p.2) ∧
    ∀ p ∈ later, ¬ p.2 ≤ t

theorem pick_of_lastLeast {heads : List (κ × τ)} {bound : τ} (old : Option κ) {k : κ}
    (h : LastLeast heads bound k) : pick heads bound old = some k := by
  obtain ⟨before, t, later, rfl, hbound, hbefore, hlater⟩ := h
  induction before generalizing bound old with
  | nil =>
      rw [List.nil_append, pick, if_pos hbound]
      exact pick_of_forall_not_le _ hlater
  | cons p before ih =>
      have htail : ∀ q ∈ before, t ≤ q.2 := fun q hq => hbefore q (List.mem_cons_of_mem p hq)
      rw [List.cons_append, pick]
      split
      · exact ih (some p.1) (hbefore p List.mem_cons_self) htail
      · exact ih old hbound htail

end Selection

/-! ## Taking elements -/

variable [DecidableEq κ]

/-- The position after taking one element from `k`. -/
def advance (n : κ → ℕ) (k : κ) : κ → ℕ := Function.update n k (n k + 1)

@[simp] theorem advance_same (n : κ → ℕ) (k : κ) : advance n k k = n k + 1 := by simp [advance]

theorem advance_of_ne (n : κ → ℕ) {k k' : κ} (h : k' ≠ k) : advance n k k' = n k' := by
  simp [advance, h]

/-- From positions `n`, taking one selected element after another gives the sequence and
leaves the positions at the end.  `rule n k` says that `k` may be selected at `n`. -/
inductive Reads (rule : (κ → ℕ) → κ → Prop) (L : κ → List α) :
    (κ → ℕ) → List (κ × α) → (κ → ℕ) → Prop
  | nil (n : κ → ℕ) : Reads rule L n [] n
  | cons {n n' : κ → ℕ} {k : κ} {x : α} {xs : List (κ × α)} (hrule : rule n k)
      (hx : (L k)[n k]? = some x) (h : Reads rule L (advance n k) xs n') :
      Reads rule L n ((k, x) :: xs) n'

namespace Reads

variable {rule : (κ → ℕ) → κ → Prop} {L : κ → List α} {n n' : κ → ℕ} {xs : List (κ × α)}

theorem le (h : Reads rule L n xs n') (k : κ) : n k ≤ n' k := by
  induction h with
  | nil => exact Nat.le_refl _
  | @cons n n' k₀ x xs hrule hx h ih =>
      by_cases hk : k = k₀
      · subst hk
        rw [advance_same] at ih
        omega
      · rwa [advance_of_ne n hk] at ih

/-- What is taken from one key is the stretch of its log between the positions. -/
theorem filter_eq (h : Reads rule L n xs n') (k : κ) :
    (xs.filter fun p => p.1 = k).map Prod.snd = ((L k).drop (n k)).take (n' k - n k) := by
  induction h with
  | nil => simp
  | @cons n n' k₀ x xs hrule hx h ih =>
      have hle := h.le k
      by_cases hk : k₀ = k
      · subst hk
        rw [advance_same] at ih hle
        obtain ⟨hlt, hget⟩ := List.getElem?_eq_some_iff.mp hx
        rw [List.filter_cons_of_pos (by simp), List.map_cons, ih, List.drop_eq_getElem_cons hlt,
          show n' k₀ - n k₀ = n' k₀ - (n k₀ + 1) + 1 by omega, List.take_succ_cons, hget]
      · rw [advance_of_ne n (Ne.symm hk)] at ih
        rw [List.filter_cons_of_neg (by simpa using hk), ih]

/-- Everything taken stands in its log, not before the starting position. -/
theorem exists_of_mem (h : Reads rule L n xs n') {k : κ} {x : α} (hmem : (k, x) ∈ xs) :
    ∃ i, n k ≤ i ∧ (L k)[i]? = some x ∧ ∃ m, rule m k := by
  induction h with
  | nil => simp at hmem
  | @cons n n' k₀ y xs hrule hx h ih =>
      rcases List.mem_cons.mp hmem with heq | hmem
      · obtain ⟨rfl, rfl⟩ := Prod.mk.inj heq
        exact ⟨n k, Nat.le_refl _, hx, n, hrule⟩
      · obtain ⟨i, hle, hget, hm⟩ := ih hmem
        refine ⟨i, ?_, hget, hm⟩
        by_cases hk : k = k₀
        · subst hk
          rw [advance_same] at hle
          omega
        · rwa [advance_of_ne n hk] at hle

/-- Taking a least head of logs in order gives a sequence in order. -/
theorem pairwise {r : α → α → Prop} (hrefl : ∀ x, r x x) (htrans : ∀ {x y z}, r x y → r y z → r x z)
    (hleast : ∀ n k x, rule n k → (L k)[n k]? = some x →
      ∀ m k' y, rule m k' → (L k')[n k']? = some y → r x y)
    (hsorted : ∀ m k, rule m k → (L k).Pairwise r) (h : Reads rule L n xs n') :
    (xs.map Prod.snd).Pairwise r := by
  induction h with
  | nil => exact List.Pairwise.nil
  | @cons n n' k x xs hrule hx h ih =>
      rw [List.map_cons, List.pairwise_cons]
      refine ⟨fun y hy => ?_, ih⟩
      obtain ⟨⟨k', y⟩, hmem, rfl⟩ := List.mem_map.mp hy
      obtain ⟨i, hle, hget, m, hm⟩ := h.exists_of_mem hmem
      have hle' : n k' ≤ i := by
        by_cases hk : k' = k
        · subst hk
          rw [advance_same] at hle
          omega
        · rwa [advance_of_ne n hk] at hle
      obtain ⟨hi, rfl⟩ := List.getElem?_eq_some_iff.mp hget
      have hhead : (L k')[n k']? = some (L k')[n k'] := List.getElem?_eq_getElem (by omega)
      refine htrans (hleast n k x hrule hx m k' _ hm hhead) ?_
      rcases Nat.lt_or_eq_of_le hle' with hlt | heq
      · exact List.pairwise_iff_getElem.mp (hsorted m k' hm) (n k') i (by omega) hi hlt
      · simp only [heq]
        exact hrefl _

/-- Sequences of takes compose. -/
theorem append {n'' : κ → ℕ} {ys : List (κ × α)} (h : Reads rule L n xs n')
    (h' : Reads rule L n' ys n'') : Reads rule L n (xs ++ ys) n'' := by
  induction h with
  | nil => exact h'
  | cons hrule hx h ih => exact Reads.cons hrule hx (ih h')

/-- Logs that grew meanwhile keep what was taken from them. -/
theorem grow {L' : κ → List α} (hL : ∀ k, L k <+: L' k) (h : Reads rule L n xs n') :
    Reads rule L' n xs n' := by
  induction h with
  | nil => exact Reads.nil _
  | @cons n n' k x xs hrule hx h ih =>
      refine Reads.cons hrule ?_ ih
      obtain ⟨hlt, rfl⟩ := List.getElem?_eq_some_iff.mp hx
      rw [List.getElem?_eq_getElem (Nat.lt_of_lt_of_le hlt (hL k).length_le)]
      exact congrArg some ((hL k).getElem hlt).symm

end Reads

/-! ## Termination -/

/-- How many elements of the logs of some keys are still to be taken. -/
def remaining (L : κ → List α) (n : κ → ℕ) (keys : List κ) : ℕ :=
  (keys.map fun k => (L k).length - n k).sum

theorem remaining_advance {L : κ → List α} {n : κ → ℕ} {keys : List κ} (hnodup : keys.Nodup)
    {k : κ} (hk : k ∈ keys) (hlt : n k < (L k).length) :
    remaining L (advance n k) keys + 1 = remaining L n keys := by
  induction keys with
  | nil => simp at hk
  | cons k₀ keys ih =>
      rw [List.nodup_cons] at hnodup
      simp only [remaining, List.map_cons, List.sum_cons] at ih ⊢
      rcases List.mem_cons.mp hk with rfl | hmem
      · have hsame : keys.map (fun k' => (L k').length - advance n k k') =
            keys.map fun k' => (L k').length - n k' := by
          refine List.map_congr_left fun k' hk' => ?_
          have hne : k' ≠ k := by
            rintro rfl
            exact hnodup.1 hk'
          rw [advance_of_ne n hne]
        rw [advance_same, hsame]
        omega
      · have hne : k₀ ≠ k := by
          rintro rfl
          exact hnodup.1 hmem
        rw [advance_of_ne n hne]
        have := ih hnodup.2 hmem
        omega

end Merge
