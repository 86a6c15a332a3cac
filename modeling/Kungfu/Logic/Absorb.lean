import Mathlib.Logic.Function.Basic
import Mathlib.Order.BooleanAlgebra.Set
import Mathlib.Tactic.Tauto

/-!
# Cells that take in one another

Cells hold sets.  A step along an edge changes what the target holds by what the source
holds, and nothing else.  A run may come to a source that has been a target before; as long
as such a cell is a source of nothing but itself, the run adds to each cell what its sources
held in the beginning, or takes it away.
-/

namespace Absorb

variable {ι α : Type}

/-- The source and the target of a step. -/
structure Edge (ι : Type) where
  source : ι
  target : ι

/-- No target is a source of another cell. -/
def SelfOnly (es : List (Edge ι)) : Prop :=
  ∀ e ∈ es, ∀ e' ∈ es, e'.source = e.target → e'.target = e.target

/-- What the sources of cell `i` hold. -/
def fed (K : ι → Set α) (es : List (Edge ι)) (i : ι) : Set α :=
  {x | ∃ e ∈ es, e.target = i ∧ x ∈ K e.source}

@[simp] theorem fed_nil (K : ι → Set α) (i : ι) : fed K [] i = ∅ := by simp [fed]

theorem mem_fed_cons {K : ι → Set α} {e : Edge ι} {es : List (Edge ι)} {i : ι} {x : α} :
    x ∈ fed K (e :: es) i ↔ e.target = i ∧ x ∈ K e.source ∨ x ∈ fed K es i := by
  simp [fed]

theorem SelfOnly.tail {e : Edge ι} {es : List (Edge ι)} (H : SelfOnly (e :: es)) : SelfOnly es :=
  fun e₁ h₁ e₂ h₂ => H e₁ (List.mem_cons_of_mem e h₁) e₂ (List.mem_cons_of_mem e h₂)

variable [DecidableEq ι] {f : Set α → Set α → Set α} {K : ι → Set α} {e : Edge ι}
  {es : List (Edge ι)}

/-- A step along an edge. -/
def step (f : Set α → Set α → Set α) (K : ι → Set α) (e : Edge ι) : ι → Set α :=
  Function.update K e.target (f (K e.target) (K e.source))

/-- The steps along all edges. -/
def run (f : Set α → Set α → Set α) (K : ι → Set α) (es : List (Edge ι)) : ι → Set α :=
  es.foldl (step f) K

@[simp] theorem run_nil : run f K [] = K := rfl

@[simp] theorem run_cons : run f K (e :: es) = run f (step f K e) es := rfl

@[simp] theorem step_target : step f K e e.target = f (K e.target) (K e.source) :=
  Function.update_self ..

theorem step_of_ne {i : ι} (h : i ≠ e.target) : step f K e i = K i := Function.update_of_ne h ..

theorem subset_step_union (i : ι) : K i ⊆ step (· ∪ ·) K e i := by
  by_cases hi : i = e.target
  · subst hi
    rw [step_target]
    exact Set.subset_union_left
  · rw [step_of_ne hi]

/-- A step leaves a later source as it was, or that source is a target of its own and of the
step. -/
theorem step_source (H : SelfOnly (e :: es)) {e' : Edge ι} (he : e' ∈ es) :
    step f K e e'.source = K e'.source ∨ e'.source = e.target ∧ e'.target = e.target := by
  by_cases h : e'.source = e.target
  · exact Or.inr ⟨h, H e List.mem_cons_self e' (List.mem_cons_of_mem e he) h⟩
  · exact Or.inl (step_of_ne h)

/-- A step does not show in what the sources of the other cells hold. -/
theorem fed_step_of_ne (H : SelfOnly (e :: es)) {i : ι} (hi : i ≠ e.target) :
    fed (step f K e) es i = fed K es i := by
  ext x
  refine exists_congr fun e' => and_congr_right fun he => and_congr_right fun htarget => ?_
  rcases step_source (f := f) (K := K) H he with heq | ⟨-, heq⟩
  · rw [heq]
  · exact absurd (htarget.symm.trans heq) hi

/-- Every cell takes in what its sources held in the beginning. -/
theorem run_union (H : SelfOnly es) (i : ι) : run (· ∪ ·) K es i = K i ∪ fed K es i := by
  induction es generalizing K with
  | nil => simp
  | cons e es ih =>
      rw [run_cons, ih H.tail]
      by_cases hi : i = e.target
      · subst hi
        ext x
        simp only [step_target, Set.mem_union, mem_fed_cons, true_and]
        constructor
        · rintro ((hx | hx) | ⟨e', he', htarget, hx⟩)
          · exact Or.inl hx
          · exact Or.inr (Or.inl hx)
          · rcases step_source (f := (· ∪ ·)) (K := K) H he' with heq | ⟨heq, -⟩
            · exact Or.inr (Or.inr ⟨e', he', htarget, heq ▸ hx⟩)
            · rw [heq, step_target] at hx
              exact hx.imp_right Or.inl
        · rintro (hx | hx | ⟨e', he', htarget, hx⟩)
          · exact Or.inl (Or.inl hx)
          · exact Or.inl (Or.inr hx)
          · by_cases heq : e'.source = e.target
            · exact Or.inl (Or.inl (heq ▸ hx))
            · exact Or.inr ⟨e', he', htarget, by rwa [step_of_ne heq]⟩
      · ext x
        simp [step_of_ne hi, fed_step_of_ne H hi, mem_fed_cons, Ne.symm hi]

/-- From every cell that is taken away which its sources held in the beginning; a source of
itself has to be empty. -/
theorem run_diff (H : SelfOnly es) (hself : ∀ e ∈ es, e.source = e.target → K e.source = ∅)
    (i : ι) : run (· \ ·) K es i = K i \ fed K es i := by
  induction es generalizing K with
  | nil => simp
  | cons e es ih =>
      -- a source that has been a target is empty, before the step and after it
      have hsame : ∀ e' ∈ es, step (· \ ·) K e e'.source = K e'.source := by
        intro e' he'
        rcases step_source (f := (· \ ·)) (K := K) H he' with heq | ⟨heq, htarget⟩
        · exact heq
        · have hempty := hself e' (List.mem_cons_of_mem e he') (heq.trans htarget.symm)
          rw [heq] at hempty ⊢
          simp [hempty]
      rw [run_cons, ih H.tail fun e' he' h => by
        rw [hsame e' he']
        exact hself e' (List.mem_cons_of_mem e he') h]
      have hfed : fed (step (· \ ·) K e) es i = fed K es i := by
        ext x
        refine exists_congr fun e' => and_congr_right fun he => ?_
        rw [hsame e' he]
      rw [hfed]
      by_cases hi : i = e.target
      · subst hi
        ext x
        simp only [step_target, Set.mem_sdiff, mem_fed_cons, true_and]
        tauto
      · ext x
        simp [step_of_ne hi, mem_fed_cons, Ne.symm hi]

end Absorb
