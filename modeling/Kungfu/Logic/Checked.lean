import Mathlib.Algebra.Ring.Int.Defs

/-!
# Checked arithmetic

What a signed operation comes to is undefined when the value leaves the range of the type.  A
checked operation has no result then.
-/

namespace Checked

/-- The values of a signed 64-bit integer. -/
def Representable (x : ℤ) : Prop := -2 ^ 63 ≤ x ∧ x < 2 ^ 63

instance : DecidablePred Representable := fun _ => inferInstanceAs (Decidable (_ ∧ _))

/-- The 64-bit integer with a value. -/
def ofInt? (x : ℤ) : Option Int64 := if Representable x then some (Int64.ofInt x) else none

variable {x : ℤ} {y : Int64}

theorem representable_toInt (y : Int64) : Representable y.toInt := ⟨y.le_toInt, y.toInt_lt⟩

@[simp] theorem ofInt?_eq_some_iff : ofInt? x = some y ↔ y.toInt = x := by
  unfold ofInt?
  split
  · rename_i h
    rw [Option.some_inj, ← Int64.toInt_inj, Int64.toInt_ofInt_of_le h.1 h.2, eq_comm]
  · rename_i h
    refine ⟨(nomatch ·), fun hy => absurd ?_ h⟩
    exact hy ▸ representable_toInt y

theorem exists_ofInt? (h : Representable x) : ∃ y, ofInt? x = some y ∧ y.toInt = x :=
  ⟨Int64.ofInt x, if_pos h, Int64.toInt_ofInt_of_le h.1 h.2⟩

/-- A sum. -/
def add (x y : Int64) : Option Int64 := ofInt? (x.toInt + y.toInt)

/-- A value, or an error if it cannot be represented. -/
def checked {ε : Type} (overflow : ε) (x : ℤ) : Except ε ℤ :=
  if Representable x then .ok x else .error overflow

variable {ε : Type} {overflow : ε}

theorem checked_of_representable (h : Representable x) : checked overflow x = .ok x := if_pos h

theorem checked_of_not_representable (h : ¬ Representable x) :
    checked overflow x = .error overflow :=
  if_neg h

@[simp] theorem checked_eq_ok_iff {y : ℤ} :
    checked overflow x = .ok y ↔ Representable x ∧ x = y := by
  unfold checked
  split <;> simp_all

end Checked
