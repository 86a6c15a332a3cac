import Mathlib.Data.List.Basic
import Mathlib.Data.List.Infix

/-!
# Segmenting a sequence at its end marks

A sequence some of whose elements are end marks falls into closed segments, each of
which ends with its only mark, and a current segment without any.  `split` computes
them by one left fold, so appending an element changes only the last segment, and a
position in the sequence names a place in the segments that later appends keep.
-/

namespace Segment

variable {α : Type} (isEnd : α → Bool)

/-- Append one element to the current segment, closing it at a mark. -/
def push (s : List (List α) × List α) (x : α) : List (List α) × List α :=
  if isEnd x then (s.1 ++ [s.2 ++ [x]], []) else (s.1, s.2 ++ [x])

/-- The closed segments of a sequence and its current segment. -/
def split (xs : List α) : List (List α) × List α := xs.foldl (push isEnd) ([], [])

/-- Every segment, the current one last. -/
def all (xs : List α) : List (List α) := (split isEnd xs).1 ++ [(split isEnd xs).2]

@[simp] theorem split_nil : split isEnd [] = ([], []) := rfl

theorem split_concat (xs : List α) (x : α) :
    split isEnd (xs ++ [x]) = push isEnd (split isEnd xs) x := by simp [split]

theorem split_concat_of_end (xs : List α) {x : α} (h : isEnd x) :
    split isEnd (xs ++ [x]) = ((split isEnd xs).1 ++ [(split isEnd xs).2 ++ [x]], []) := by
  simp [split_concat, push, h]

theorem split_concat_of_not_end (xs : List α) {x : α} (h : isEnd x = false) :
    split isEnd (xs ++ [x]) = ((split isEnd xs).1, (split isEnd xs).2 ++ [x]) := by
  simp [split_concat, push, h]

/-- Nothing is lost or reordered by segmenting. -/
theorem flatten_split (xs : List α) :
    (split isEnd xs).1.flatten ++ (split isEnd xs).2 = xs := by
  induction xs using List.reverseRecOn with
  | nil => rfl
  | append_singleton xs x ih =>
      rw [split_concat, push]
      split
      · simp only [List.flatten_append, List.flatten_cons, List.flatten_nil, List.append_nil,
          ← List.append_assoc, ih]
      · simp only [← List.append_assoc, ih]

theorem not_end_of_mem_current {xs : List α} {x : α} (h : x ∈ (split isEnd xs).2) :
    isEnd x = false := by
  induction xs using List.reverseRecOn with
  | nil => simp at h
  | append_singleton xs y ih =>
      by_cases hy : isEnd y
      · simp [split_concat_of_end isEnd xs hy] at h
      · rw [split_concat_of_not_end isEnd xs (by simpa using hy)] at h
        rcases List.mem_append.mp h with h | h
        · exact ih h
        · rw [List.mem_singleton.mp h]
          simpa using hy

/-- A closed segment ends with its only mark. -/
theorem closed_shape {xs ys : List α} (h : ys ∈ (split isEnd xs).1) :
    ∃ zs e, ys = zs ++ [e] ∧ isEnd e ∧ ∀ z ∈ zs, isEnd z = false := by
  induction xs using List.reverseRecOn with
  | nil => simp at h
  | append_singleton xs x ih =>
      by_cases hx : isEnd x
      · rw [split_concat_of_end isEnd xs hx] at h
        rcases List.mem_append.mp h with h | h
        · exact ih h
        · exact ⟨_, x, List.mem_singleton.mp h, hx, fun z hz => not_end_of_mem_current isEnd hz⟩
      · rw [split_concat_of_not_end isEnd xs (by simpa using hx)] at h
        exact ih h

theorem closed_ne_nil {xs ys : List α} (h : ys ∈ (split isEnd xs).1) : ys ≠ [] := by
  obtain ⟨zs, e, rfl, -, -⟩ := closed_shape isEnd h
  simp

/-- Appending keeps every closed segment at its index. -/
theorem closed_append (xs ys : List α) :
    (split isEnd xs).1 <+: (split isEnd (xs ++ ys)).1 := by
  induction ys using List.reverseRecOn with
  | nil => simp
  | append_singleton ys y ih =>
      rw [← List.append_assoc, split_concat, push]
      split
      · exact ih.trans (List.prefix_append _ _)
      · exact ih

/-- The element after a prefix stands right after what the prefix left in its current
segment, however much is appended later. -/
theorem exists_getElem?_all (xs : List α) (x : α) (ys : List α) :
    ∃ zs, (all isEnd (xs ++ x :: ys))[(split isEnd xs).1.length]? =
      some ((split isEnd xs).2 ++ x :: zs) := by
  induction ys using List.reverseRecOn with
  | nil =>
      refine ⟨[], ?_⟩
      by_cases hx : isEnd x
      · simp [all, split_concat_of_end isEnd xs hx]
      · simp [all, split_concat_of_not_end isEnd xs (by simpa using hx)]
  | append_singleton ys y ih =>
      obtain ⟨zs, hzs⟩ := ih
      rw [← List.cons_append, ← List.append_assoc, all, split_concat, push]
      -- the segment is either closed already or the current one, which `y` extends
      rcases Nat.lt_or_ge (split isEnd xs).1.length (split isEnd (xs ++ x :: ys)).1.length
        with hlt | hge
      · rw [all, List.getElem?_append_left hlt] at hzs
        refine ⟨zs, ?_⟩
        split
        · rw [List.append_assoc, List.getElem?_append_left hlt, hzs]
        · rw [List.getElem?_append_left hlt, hzs]
      · have hlen : (split isEnd (xs ++ x :: ys)).1.length = (split isEnd xs).1.length :=
          Nat.le_antisymm hge (closed_append isEnd xs (x :: ys)).length_le
        rw [all, List.getElem?_append_right hge, hlen, Nat.sub_self, List.getElem?_cons_zero,
          Option.some.injEq] at hzs
        refine ⟨zs ++ [y], ?_⟩
        split <;> simp [hzs, hlen]

/-! ## Where a segment starts -/

/-- The first `i` closed segments, taken as a sequence of their own, are all closed. -/
theorem split_flatten_take (xs : List α) (i : ℕ) :
    split isEnd ((split isEnd xs).1.take i).flatten = ((split isEnd xs).1.take i, []) := by
  induction xs using List.reverseRecOn with
  | nil => simp
  | append_singleton xs x ih =>
      by_cases hx : isEnd x
      · rw [split_concat_of_end isEnd xs hx]
        rcases Nat.lt_or_ge (split isEnd xs).1.length i with hlt | hge
        · have hall : ((split isEnd xs).1 ++ [(split isEnd xs).2 ++ [x]]).take i =
              (split isEnd xs).1 ++ [(split isEnd xs).2 ++ [x]] :=
            List.take_of_length_le (by simp; omega)
          have hflat : ((split isEnd xs).1 ++ [(split isEnd xs).2 ++ [x]]).flatten = xs ++ [x] := by
            simp [← List.append_assoc, flatten_split]
          rw [hall, hflat, split_concat_of_end isEnd xs hx]
        · rw [List.take_append_of_le_length hge, ih]
      · rw [split_concat_of_not_end isEnd xs (by simpa using hx), ih]

theorem flatten_take_prefix (xs : List α) (i : ℕ) :
    ((split isEnd xs).1.take i).flatten <+: xs := by
  refine ⟨((split isEnd xs).1.drop i).flatten ++ (split isEnd xs).2, ?_⟩
  rw [← List.append_assoc, ← List.flatten_append, List.take_append_drop, flatten_split]

end Segment
