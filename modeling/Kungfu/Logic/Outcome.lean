import Mathlib.Data.Set.Basic

/-!
# Postconditions of computations that may fail

`Post x Q R` says that the computation `x` either completes with a value in `Q` or fails
with an error in `R`.  The rules follow the structure of a program: a sequence is proved
from its steps, and a test from its branches.  `Both x x' S` relates what two computations
complete with, and has the same rules for two programs of one structure.
-/

namespace Outcome

variable {ε α β : Type} {x : Except ε α} {Q Q' : α → Prop} {R R' : ε → Prop}

/-- The computation completes in `Q` or fails in `R`. -/
def Post (x : Except ε α) (Q : α → Prop) (R : ε → Prop) : Prop :=
  match x with
  | .ok a => Q a
  | .error e => R e

@[simp] theorem ok_bind (a : α) (f : α → Except ε β) : (Except.ok a >>= f) = f a := rfl

@[simp] theorem post_ok {a : α} : Post (.ok a : Except ε α) Q R ↔ Q a := Iff.rfl

@[simp] theorem post_error {e : ε} : Post (.error e : Except ε α) Q R ↔ R e := Iff.rfl

theorem Post.of_ok {a : α} (hx : Post x Q R) (h : x = .ok a) : Q a := by
  subst h
  exact hx

theorem Post.of_error {e : ε} (hx : Post x Q R) (h : x = .error e) : R e := by
  subst h
  exact hx

/-- What is known of the value if the computation completes. -/
theorem Post.of_forall_ok (h : ∀ a, x = .ok a → Q a) : Post x Q fun _ => True := by
  cases x with
  | ok a => exact h a rfl
  | error e => trivial

/-- A sequence that completes completes in both steps. -/
theorem exists_of_bind {f : α → Except ε β} {b : β} (h : (x >>= f) = .ok b) :
    ∃ a, x = .ok a ∧ f a = .ok b := by
  cases x with
  | ok a => exact ⟨a, rfl, h⟩
  | error e => cases h

theorem exists_of_map {f : α → β} {b : β} (h : x.map f = .ok b) : ∃ a, x = .ok a ∧ f a = b := by
  cases x with
  | ok a => exact ⟨a, rfl, Except.ok.inj h⟩
  | error e => cases h

/-- What completes completes with its errors named otherwise, too. -/
@[simp] theorem mapError_eq_ok {ε' : Type} {g : ε → ε'} {a : α} :
    x.mapError g = .ok a ↔ x = .ok a := by
  cases x <;> simp [Except.mapError]

theorem exists_of_isOk (h : x.isOk = true) : ∃ a, x = .ok a := by
  cases x with
  | ok a => exact ⟨a, rfl⟩
  | error e => cases h

/-- A computation that completes with a value that passes a test. -/
theorem exists_of_any {p : α → Bool} (h : x.toOption.any p = true) : ∃ a, x = .ok a ∧ p a = true := by
  cases x with
  | ok a => exact ⟨a, rfl, h⟩
  | error e => cases h

theorem Post.mono (hx : Post x Q R) (hQ : ∀ a, Q a → Q' a) (hR : ∀ e, R e → R' e) :
    Post x Q' R' := by
  cases x with
  | ok a => exact hQ a hx
  | error e => exact hR e hx

/-- Errors that are named otherwise. -/
theorem Post.mapError {ε' : Type} {g : ε → ε'} {S : ε' → Prop} (hx : Post x Q R)
    (hR : ∀ e, R e → S (g e)) : Post (x.mapError g) Q S := by
  cases x with
  | ok a => exact hx
  | error e => exact hR e hx

theorem Post.imp (hx : Post x Q R) (hQ : ∀ a, Q a → Q' a) : Post x Q' R :=
  hx.mono hQ fun _ h => h

/-- The rule for a sequence of two steps. -/
theorem Post.bind {f : α → Except ε β} {S : β → Prop} (hx : Post x Q R)
    (hf : ∀ a, Q a → Post (f a) S R) : Post (x >>= f) S R := by
  cases x with
  | ok a => exact hf a hx
  | error e => exact hx

theorem post_ite {p : Prop} [Decidable p] {y : Except ε α} (ht : p → Post x Q R)
    (hf : ¬ p → Post y Q R) : Post (if p then x else y) Q R := by
  by_cases h : p
  · rw [if_pos h]
    exact ht h
  · rw [if_neg h]
    exact hf h

/-- A loop over a list keeps what each of its steps keeps. -/
theorem post_foldlM {σ ι : Type} {step : σ → ι → Except ε σ} {I : σ → Prop} {xs : List ι} {s : σ}
    (hs : I s) (hstep : ∀ s i, i ∈ xs → I s → Post (step s i) I R) :
    Post (xs.foldlM step s) I R := by
  induction xs generalizing s with
  | nil => exact hs
  | cons i xs ih =>
      rw [List.foldlM_cons]
      refine (hstep s i List.mem_cons_self hs).bind fun s' hs' => ih hs' ?_
      exact fun t j hj => hstep t j (List.mem_cons_of_mem i hj)

/-- A loop whose steps complete is a loop of what they come to. -/
theorem foldlM_eq_ok {σ ι : Type} {step : σ → ι → Except ε σ} {f : σ → ι → σ} {xs : List ι}
    (h : ∀ i ∈ xs, ∀ s, step s i = .ok (f s i)) (s : σ) : xs.foldlM step s = .ok (xs.foldl f s) := by
  induction xs generalizing s with
  | nil => rfl
  | cons i xs ih =>
      rw [List.foldlM_cons, h i List.mem_cons_self, ok_bind, List.foldl_cons]
      exact ih (fun j hj => h j (List.mem_cons_of_mem i hj)) (f s i)

/-- A part of a run that completes completes. -/
theorem exists_foldlM_of_prefix {σ ι : Type} {step : σ → ι → Except ε σ} {done xs : List ι} {s s' : σ}
    (hrun : xs.foldlM step s = .ok s') (h : done <+: xs) : ∃ t, done.foldlM step s = .ok t := by
  obtain ⟨todo, rfl⟩ := h
  rw [List.foldlM_append] at hrun
  obtain ⟨t, ht, -⟩ := exists_of_bind hrun
  exact ⟨t, ht⟩

/-- A loop over a list keeps what is known of the state after each part of the list. -/
theorem post_foldlM_parts {σ ι : Type} {step : σ → ι → Except ε σ} {I : List ι → σ → Prop}
    {xs : List ι} {s : σ} (hs : I [] s)
    (hstep : ∀ done i todo s, xs = done ++ i :: todo → I done s →
      Post (step s i) (I (done ++ [i])) R) :
    Post (xs.foldlM step s) (I xs) R := by
  suffices hgen : ∀ done todo s, xs = done ++ todo → I done s →
      Post (todo.foldlM step s) (I xs) R from hgen [] xs s rfl hs
  intro done todo
  induction todo generalizing done with
  | nil =>
      intro s hxs hI
      rw [hxs, List.append_nil]
      exact hI
  | cons i todo ih =>
      intro s hxs hI
      rw [List.foldlM_cons]
      refine (hstep done i todo s hxs hI).bind fun t ht => ih (done ++ [i]) t ?_ ht
      rw [hxs, List.append_assoc, List.singleton_append]

/-- What is known of the state after each part of a list is known after the whole list. -/
theorem foldlM_invariant {σ ι : Type} {step : σ → ι → Except ε σ} {I : List ι → σ → Prop}
    {xs : List ι} {s s' : σ} (hs : I [] s)
    (hstep : ∀ done i todo s s', xs = done ++ i :: todo → I done s → step s i = .ok s' →
      I (done ++ [i]) s')
    (h : xs.foldlM step s = .ok s') : I xs s' := by
  have hpost : Post (xs.foldlM step s) (I xs) fun _ => True :=
    post_foldlM_parts hs fun done i todo s hxs hI =>
      Post.of_forall_ok fun s' hi => hstep done i todo s s' hxs hI hi
  exact hpost.of_ok h

/-! ### Two computations -/

section Both

variable {ε' α' β' : Type} {x' : Except ε' α'} {S S' : α → α' → Prop}

/-- Where both computations complete, what they complete with is related. -/
def Both (x : Except ε α) (x' : Except ε' α') (S : α → α' → Prop) : Prop :=
  ∀ a a', x = .ok a → x' = .ok a' → S a a'

theorem both_ok {a : α} {a' : α'} (h : S a a') :
    Both (.ok a : Except ε α) (.ok a' : Except ε' α') S := by
  rintro b b' ⟨⟩ ⟨⟩
  exact h

/-- The rule for two sequences of two steps. -/
theorem Both.bind {f : α → Except ε β} {f' : α' → Except ε' β'} {T : β → β' → Prop}
    (hx : Both x x' S) (hf : ∀ a a', S a a' → Both (f a) (f' a') T) :
    Both (x >>= f) (x' >>= f') T := by
  intro b b' h h'
  obtain ⟨a, ha, hb⟩ := exists_of_bind h
  obtain ⟨a', ha', hb'⟩ := exists_of_bind h'
  exact hf a a' (hx a a' ha ha') b b' hb hb'

/-- Two computations that branch on the same test. -/
theorem both_ite {p : Prop} [Decidable p] {y : Except ε α} {y' : Except ε' α'}
    (ht : p → Both x x' S) (hf : ¬ p → Both y y' S) :
    Both (if p then x else y) (if p then x' else y') S := by
  by_cases h : p
  · simp only [if_pos h]
    exact ht h
  · simp only [if_neg h]
    exact hf h

end Both

end Outcome
