import Mathlib.Data.List.Perm.Basic
import Mathlib.Logic.Function.Basic

/-!
# A subscriber of several logs

Entries are appended to logs by address.  A subscriber has a position in each log it joined
and takes entries one at a time, in whatever order of the logs.  What it has before it is
described up to order: an appended entry is added once if the log is joined and not at all
otherwise, and a take removes what it takes.
-/

/-- Logs by address, and the positions of a subscriber in those it joined. -/
structure Feed (κ φ : Type) where
  log : κ → List φ
  joined : List κ
  position : κ → ℕ
  nodup : joined.Nodup
  inside : ∀ k ∈ joined, position k ≤ (log k).length

namespace Feed

variable {κ φ : Type}

/-- The entries of the joined logs behind their positions, with the log they stand in. -/
def unread (F : Feed κ φ) : List (κ × φ) :=
  F.joined.flatMap fun k => ((F.log k).drop (F.position k)).map (k, ·)

/-- No log is joined. -/
def unjoined (log : κ → List φ) : Feed κ φ where
  log := log
  joined := []
  position := fun _ => 0
  nodup := List.nodup_nil
  inside := fun _ h => absurd h List.not_mem_nil

/-- Leave every log. -/
def leave (F : Feed κ φ) : Feed κ φ := unjoined F.log

@[simp] theorem unread_unjoined (log : κ → List φ) : (unjoined log).unread = [] := rfl

@[simp] theorem unread_leave (F : Feed κ φ) : F.leave.unread = [] := rfl

section Operations

variable [DecidableEq κ]

/-- Append an entry to a log. -/
def append (F : Feed κ φ) (k : κ) (f : φ) : Feed κ φ where
  log := Function.update F.log k (F.log k ++ [f])
  joined := F.joined
  position := F.position
  nodup := F.nodup
  inside := by
    intro k' hk'
    by_cases h : k' = k
    · subst h
      simpa using Nat.le_succ_of_le (F.inside k' hk')
    · simpa [h] using F.inside k' hk'

/-- Append an entry to several logs. -/
def appendAll (F : Feed κ φ) (ks : List κ) (f : φ) : Feed κ φ :=
  ks.foldl (fun F k => F.append k f) F

/-- Join a log behind its leading entries that are `past`; a log that is joined already
keeps its position. -/
def join (F : Feed κ φ) (k : κ) (past : φ → Bool) : Feed κ φ :=
  if hk : k ∈ F.joined then F
  else
    { log := F.log
      joined := F.joined ++ [k]
      position := Function.update F.position k ((F.log k).takeWhile past).length
      nodup := List.nodup_append.mpr ⟨F.nodup, List.pairwise_singleton _ k, by
        rintro a ha b hb rfl
        obtain rfl := List.mem_singleton.mp hb
        exact hk ha⟩
      inside := by
        intro k' hk'
        by_cases h : k' = k
        · subst h
          simpa using (List.takeWhile_sublist past).length_le
        · rcases List.mem_append.mp hk' with hk' | hk'
          · simpa [h] using F.inside k' hk'
          · exact absurd (List.mem_singleton.mp hk') h }

/-- Take the next entry of a log. -/
def next (F : Feed κ φ) (k : κ) : Option (φ × Feed κ φ) :=
  if hk : k ∈ F.joined ∧ F.position k < (F.log k).length then
    some ((F.log k)[F.position k],
      { log := F.log
        joined := F.joined
        position := Function.update F.position k (F.position k + 1)
        nodup := F.nodup
        inside := by
          intro k' hk'
          by_cases h : k' = k
          · subst h
            simpa using Nat.succ_le_of_lt hk.2
          · simpa [h] using F.inside k' hk' })
  else none

/-- Two families of lists that differ in one entry at one key. -/
theorem flatMap_perm_of_mem {α : Type} {ks : List κ} {k : κ} {x : α} {f g : κ → List α}
    (hks : ks.Nodup) (hk : k ∈ ks) (hperm : (g k).Perm (x :: f k))
    (heq : ∀ k', k' ≠ k → g k' = f k') : (ks.flatMap g).Perm (x :: ks.flatMap f) := by
  induction ks with
  | nil => exact absurd hk List.not_mem_nil
  | cons k' ks ih =>
      have hnodup := List.nodup_cons.mp hks
      rw [List.flatMap_cons, List.flatMap_cons]
      by_cases h : k' = k
      · subst h
        have hrest : ks.flatMap g = ks.flatMap f := by
          refine List.flatMap_congr fun k'' hk'' => heq k'' ?_
          rintro rfl
          exact hnodup.1 hk''
        rw [hrest]
        exact hperm.append_right _
      · rw [heq k' h]
        have hmem : k ∈ ks := (List.mem_cons.mp hk).resolve_left (Ne.symm h)
        exact ((ih hnodup.2 hmem).append_left (f k')).trans List.perm_middle

@[simp] theorem joined_append (F : Feed κ φ) (k : κ) (f : φ) : (F.append k f).joined = F.joined :=
  rfl

@[simp] theorem joined_appendAll (F : Feed κ φ) (ks : List κ) (f : φ) :
    (F.appendAll ks f).joined = F.joined := by
  induction ks generalizing F with
  | nil => rfl
  | cons k ks ih => exact ih (F.append k f)

theorem unread_append_of_mem {F : Feed κ φ} {k : κ} (hk : k ∈ F.joined) (f : φ) :
    (F.append k f).unread.Perm ((k, f) :: F.unread) := by
  refine flatMap_perm_of_mem F.nodup hk ?_ fun k' hk' => ?_
  · simp only [append, Function.update_self]
    rw [List.drop_append_of_le_length (F.inside k hk), List.map_append]
    exact List.perm_append_singleton _ _
  · simp [append, hk']

theorem unread_append_of_notMem {F : Feed κ φ} {k : κ} (hk : k ∉ F.joined) (f : φ) :
    (F.append k f).unread = F.unread := by
  refine List.flatMap_congr fun k' hk' => ?_
  have hne : k' ≠ k := by
    rintro rfl
    exact hk hk'
  simp [append, hne]

/-- An entry that is appended to several logs is added once for each that is joined. -/
theorem unread_appendAll (F : Feed κ φ) (ks : List κ) (f : φ) :
    (F.appendAll ks f).unread.Perm
      ((ks.filter (· ∈ F.joined)).map (·, f) ++ F.unread) := by
  induction ks generalizing F with
  | nil => exact List.Perm.refl _
  | cons k ks ih =>
      refine (ih (F.append k f)).trans ?_
      rw [joined_append]
      by_cases hk : k ∈ F.joined
      · rw [List.filter_cons_of_pos (by simpa using hk), List.map_cons, List.cons_append]
        exact ((unread_append_of_mem hk f).append_left _).trans List.perm_middle
      · rw [List.filter_cons_of_neg (by simpa using hk), unread_append_of_notMem hk]

theorem unread_join (F : Feed κ φ) (k : κ) (past : φ → Bool) :
    (F.join k past).unread =
      if k ∈ F.joined then F.unread
      else F.unread ++ ((F.log k).dropWhile past).map (k, ·) := by
  rw [join]
  by_cases hk : k ∈ F.joined
  · rw [dif_pos hk, if_pos hk]
  · rw [dif_neg hk, if_neg hk]
    have hdrop : (F.log k).drop ((F.log k).takeWhile past).length = (F.log k).dropWhile past :=
      calc (F.log k).drop ((F.log k).takeWhile past).length
          = ((F.log k).takeWhile past ++ (F.log k).dropWhile past).drop
              ((F.log k).takeWhile past).length := by rw [List.takeWhile_append_dropWhile]
        _ = (F.log k).dropWhile past := List.drop_left
    simp only [unread, List.flatMap_append, List.flatMap_singleton, Function.update_self, hdrop]
    congr 1
    refine List.flatMap_congr fun k' hk' => ?_
    have hne : k' ≠ k := by
      rintro rfl
      exact hk hk'
    simp [hne]

theorem unread_next {F F' : Feed κ φ} {k : κ} {f : φ} (h : F.next k = some (f, F')) :
    F.unread.Perm ((k, f) :: F'.unread) := by
  rw [next] at h
  split at h
  case isFalse => exact absurd h (by simp)
  case isTrue hk =>
    obtain ⟨rfl, rfl⟩ := Prod.mk.inj (Option.some.inj h)
    refine flatMap_perm_of_mem F.nodup hk.1 ?_ fun k' hk' => ?_
    · simp only [Function.update_self]
      rw [List.drop_eq_getElem_cons hk.2, List.map_cons]
    · simp [hk']

end Operations

end Feed
