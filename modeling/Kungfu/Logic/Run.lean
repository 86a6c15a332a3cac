import Mathlib.Data.List.Basic

/-!
# Runs whose steps meet a condition

A transition function applied to a list of steps, one after another, each step meeting a
condition on the state before it.
-/

namespace Kungfu.Logic

variable {σ ι : Type*} (step : σ → ι → σ) (safe : σ → ι → Prop)

/-- Every step meets the condition `safe` in the state before it. -/
def Along : σ → List ι → Prop
  | _, [] => True
  | s, i :: is => safe s i ∧ Along (step s i) is

instance decidableAlong [∀ s i, Decidable (safe s i)] :
    ∀ (s : σ) (is : List ι), Decidable (Along step safe s is)
  | _, [] => inferInstanceAs (Decidable True)
  | s, i :: is =>
      have := decidableAlong (step s i) is
      inferInstanceAs (Decidable (safe s i ∧ Along step safe (step s i) is))

variable {step safe}

/-- An invariant that safe steps preserve holds after a run of them. -/
theorem Along.foldl {P : σ → Prop} (hstep : ∀ s i, P s → safe s i → P (step s i)) {s : σ}
    {is : List ι} (h : Along step safe s is) (H : P s) : P (is.foldl step s) := by
  induction is generalizing s with
  | nil => exact H
  | cons i is ih => exact ih h.2 (hstep s i H h.1)

/-- What safe steps meet in the states of an invariant is met by every step of the run. -/
theorem Along.along {P : σ → Prop} {Q : σ → ι → Prop}
    (hstep : ∀ s i, P s → safe s i → P (step s i)) (hQ : ∀ s i, P s → safe s i → Q s i) {s : σ}
    {is : List ι} (h : Along step safe s is) (H : P s) : Along step Q s is := by
  induction is generalizing s with
  | nil => trivial
  | cons i is ih => exact ⟨hQ s i H h.1, ih h.2 (hstep s i H h.1)⟩

/-- Where a step keeps an invariant exactly when it meets a condition, a run keeps it all the time
exactly when all its steps meet the condition.  What is to come may be taken into account. -/
theorem along_iff_forall_prefix {I : σ → Prop} {R : σ → List ι → Prop}
    (hrest : ∀ s i is, R s (i :: is) → R (step s i) is)
    (hstep : ∀ s i is, R s (i :: is) → I s → (I (step s i) ↔ safe s i)) {s : σ} {is : List ι}
    (h : R s is) (H : I s) :
    Along step safe s is ↔ ∀ done, done <+: is → I (done.foldl step s) := by
  induction is generalizing s with
  | nil =>
    refine ⟨fun _ done hdone => ?_, fun _ => trivial⟩
    rw [List.prefix_nil.mp hdone]
    exact H
  | cons i is ih =>
    have hhere := hstep s i is h H
    have hlater := fun H' => ih (hrest s i is h) (H' : I (step s i))
    constructor
    · rintro ⟨hsafe, hrest⟩ done hdone
      cases done with
      | nil => exact H
      | cons i' done =>
        obtain ⟨rfl, hinit⟩ := List.cons_prefix_cons.mp hdone
        exact (hlater (hhere.mpr hsafe)).mp hrest done hinit
    · intro hall
      have hnext : I (step s i) := hall [i] ⟨is, rfl⟩
      refine ⟨hhere.mp hnext, (hlater hnext).mpr ?_⟩
      intro done hdone
      exact hall (i :: done) (List.cons_prefix_cons.mpr ⟨rfl, hdone⟩)

/-- The same where steps that meet the condition keep more than is asked for. -/
theorem along_iff_forall_prefix_of_inv {I J : σ → Prop} (hI : ∀ s, J s → I s)
    (hsafe : ∀ s i, J s → I (step s i) → safe s i) (hstep : ∀ s i, J s → safe s i → J (step s i))
    {s : σ} {is : List ι} (H : J s) :
    Along step safe s is ↔ ∀ done, done <+: is → I (done.foldl step s) := by
  constructor
  · intro h done hdone
    have hinit := ( along_iff_forall_prefix (R := fun _ _ => True) (I := J)
      (fun _ _ _ _ => trivial)
      (fun s i _ _ hJ => ⟨fun h' => hsafe s i hJ (hI _ h'), hstep s i hJ⟩) trivial H).mp h
    exact hI _ (hinit done hdone)
  · intro hall
    induction is generalizing s with
    | nil => trivial
    | cons i is ih =>
      have hhere : safe s i := hsafe s i H (hall [i] ⟨is, rfl⟩)
      refine ⟨hhere, ih (hstep s i H hhere) fun done hdone => ?_⟩
      exact hall (i :: done) (List.cons_prefix_cons.mpr ⟨rfl, hdone⟩)

section Failing

variable {ε : Type*} (step : σ → ι → Except ε σ) (safe : σ → ι → Prop)

/-- Every step meets the condition `safe` in the state before it, up to the one that fails. -/
def AlongM : σ → List ι → Prop
  | _, [] => True
  | s, i :: is => safe s i ∧ match step s i with
    | .ok s' => AlongM s' is
    | .error _ => True

instance decidableAlongM [∀ s i, Decidable (safe s i)] :
    ∀ (s : σ) (is : List ι), Decidable (AlongM step safe s is)
  | _, [] => isTrue trivial
  | s, i :: is =>
      have : Decidable (match step s i with
          | .ok s' => AlongM step safe s' is
          | .error _ => True) :=
        match step s i with
        | .ok s' => decidableAlongM s' is
        | .error _ => isTrue trivial
      inferInstanceAs (Decidable (_ ∧ _))

variable {step safe}

/-- A weaker condition is met as well. -/
theorem AlongM.mono {safe' : σ → ι → Prop} (hsafe : ∀ s i, safe s i → safe' s i) {s : σ}
    {is : List ι} (h : AlongM step safe s is) : AlongM step safe' s is := by
  induction is generalizing s with
  | nil => trivial
  | cons i is ih =>
    obtain ⟨hhere, hrest⟩ := h
    refine ⟨hsafe s i hhere, ?_⟩
    cases hi : step s i with
    | error e => trivial
    | ok t =>
      rw [hi] at hrest
      exact ih hrest

/-- A condition that does not depend on the state. -/
theorem AlongM.of_forall {is : List ι} (h : ∀ i ∈ is, ∀ s, safe s i) (s : σ) :
    AlongM step safe s is := by
  induction is generalizing s with
  | nil => trivial
  | cons i is ih =>
    refine ⟨h i List.mem_cons_self s, ?_⟩
    cases step s i with
    | error e => trivial
    | ok t => exact ih (fun j hj => h j (List.mem_cons_of_mem i hj)) t

/-- An invariant that safe steps preserve holds after a run of them that completes. -/
theorem AlongM.foldlM {P : σ → Prop} (hstep : ∀ s i s', P s → safe s i → step s i = .ok s' → P s')
    {s s' : σ} {is : List ι} (h : AlongM step safe s is) (hrun : is.foldlM step s = .ok s')
    (H : P s) : P s' := by
  induction is generalizing s with
  | nil =>
    cases hrun
    exact H
  | cons i is ih =>
    obtain ⟨hsafe, hrest⟩ := h
    rw [List.foldlM_cons] at hrun
    cases hi : step s i with
    | error e =>
      rw [hi] at hrun
      cases hrun
    | ok t =>
      rw [hi] at hrest hrun
      exact ih hrest hrun (hstep s i t H hsafe hi)

/-- What safe steps meet in the states of an invariant is met by every step of the run. -/
theorem AlongM.alongM {P : σ → Prop} {Q : σ → ι → Prop}
    (hstep : ∀ s i s', P s → safe s i → step s i = .ok s' → P s')
    (hQ : ∀ s i, P s → safe s i → Q s i) {s : σ} {is : List ι} (h : AlongM step safe s is)
    (H : P s) : AlongM step Q s is := by
  induction is generalizing s with
  | nil => trivial
  | cons i is ih =>
    obtain ⟨hsafe, hrest⟩ := h
    refine ⟨hQ s i H hsafe, ?_⟩
    cases hi : step s i with
    | error e => trivial
    | ok t =>
      rw [hi] at hrest
      exact ih hrest (hstep s i t H hsafe hi)

/-- What holds of the steps themselves may be taken into the condition. -/
theorem AlongM.and_forall {Q : ι → Prop} {s : σ} {is : List ι} (h : AlongM step safe s is)
    (hQ : ∀ i ∈ is, Q i) : AlongM step (fun s i => safe s i ∧ Q i) s is := by
  induction is generalizing s with
  | nil => trivial
  | cons i is ih =>
    obtain ⟨hsafe, hrest⟩ := h
    refine ⟨⟨hsafe, hQ i (by simp)⟩, ?_⟩
    cases hi : step s i with
    | error e => trivial
    | ok t =>
      rw [hi] at hrest
      exact ih hrest fun j hj => hQ j (List.mem_cons_of_mem i hj)

/-- A run with one step more. -/
theorem AlongM.concat {s : σ} {is : List ι} {i : ι} (h : AlongM step safe s is)
    (hi : ∀ s', is.foldlM step s = .ok s' → safe s' i) : AlongM step safe s (is ++ [i]) := by
  induction is generalizing s with
  | nil =>
    refine ⟨hi s rfl, ?_⟩
    cases step s i with
    | error e => trivial
    | ok t => trivial
  | cons j is ih =>
    obtain ⟨hsafe, hrest⟩ := h
    refine ⟨hsafe, ?_⟩
    cases hj : step s j with
    | error e => trivial
    | ok t =>
      rw [hj] at hrest
      refine ih hrest fun s' hs' => hi s' ?_
      rw [List.foldlM_cons, hj]
      exact hs'

/-- The condition is met in the state that is reached before a step. -/
theorem AlongM.of_prefix {s s' : σ} {done is : List ι} {i : ι} (h : AlongM step safe s is)
    (hupto : done ++ [i] <+: is) (hdone : done.foldlM step s = .ok s') : safe s' i := by
  induction done generalizing s is with
  | nil =>
    obtain ⟨rest, rfl⟩ := hupto
    cases hdone
    exact h.1
  | cons j done ih =>
    obtain ⟨rest, rfl⟩ := hupto
    rw [List.foldlM_cons] at hdone
    obtain ⟨-, hrest⟩ := h
    cases hj : step s j with
    | error e =>
      rw [hj] at hdone
      cases hdone
    | ok t =>
      rw [hj] at hdone hrest
      exact ih hrest ⟨rest, rfl⟩ hdone

/-- An invariant that says what is still to come holds at the end, where nothing is. -/
theorem AlongM.foldlM_rest {P : List ι → σ → Prop}
    (hstep : ∀ s i is s', P (i :: is) s → safe s i → step s i = .ok s' → P is s') {s s' : σ}
    {is : List ι} (h : AlongM step safe s is) (hrun : is.foldlM step s = .ok s') (H : P is s) :
    P [] s' := by
  induction is generalizing s with
  | nil =>
    cases hrun
    exact H
  | cons i is ih =>
    obtain ⟨hsafe, hrest⟩ := h
    rw [List.foldlM_cons] at hrun
    cases hi : step s i with
    | error e =>
      rw [hi] at hrun
      cases hrun
    | ok t =>
      rw [hi] at hrest hrun
      exact ih hrest hrun (hstep s i is t H hsafe hi)

/-- Where a step keeps an invariant exactly when it meets a condition, a run keeps it all the time
exactly when all its steps meet the condition.  What is kept by every step may be used. -/
theorem alongM_iff_forall_prefix {J I : σ → Prop}
    (hJ : ∀ s i s', J s → step s i = .ok s' → J s')
    (hstep : ∀ s i, J s → I s → (safe s i ↔ ∀ s', step s i = .ok s' → I s')) {s : σ}
    {is : List ι} (h : J s) (H : I s) :
    AlongM step safe s is ↔
      ∀ done s', done <+: is → done.foldlM step s = .ok s' → I s' := by
  induction is generalizing s with
  | nil =>
    refine ⟨fun _ done s' hdone hrun => ?_, fun _ => trivial⟩
    rw [List.prefix_nil.mp hdone] at hrun
    cases hrun
    exact H
  | cons i is ih =>
    have hhere := hstep s i h H
    constructor
    · rintro ⟨hsafe, hrest⟩ done s' hdone hrun
      cases done with
      | nil =>
        cases hrun
        exact H
      | cons i' done =>
        obtain ⟨rfl, hinit⟩ := List.cons_prefix_cons.mp hdone
        rw [List.foldlM_cons] at hrun
        cases hi : step s i' with
        | error e =>
          rw [hi] at hrun
          cases hrun
        | ok t =>
          rw [hi] at hrest hrun
          exact (ih (hJ s i' t h hi) (hhere.mp hsafe t hi)).mp hrest done s' hinit hrun
    · intro hall
      have hnext : ∀ s', step s i = .ok s' → I s' := by
        intro t hi
        refine hall [i] t ⟨is, rfl⟩ ?_
        rw [List.foldlM_cons, hi]
        rfl
      refine ⟨hhere.mpr hnext, ?_⟩
      cases hi : step s i with
      | error e => trivial
      | ok t =>
        refine (ih (hJ s i t h hi) (hnext t hi)).mpr fun done s' hdone hrun => ?_
        refine hall (i :: done) s' (List.cons_prefix_cons.mpr ⟨rfl, hdone⟩) ?_
        rw [List.foldlM_cons, hi]
        exact hrun

end Failing

end Kungfu.Logic
