import Kungfu.Memory.Bytes

/-!
# Texts in memory that end with a zero byte

A text is read from an address up to the first zero byte.  `reach` is how far bytes can be read at
all; without a zero byte within it there is no text.
-/

namespace Memory.Mem

/-- The distance of the first zero byte. -/
def strlen (reach : ℕ) (m : Mem) (p : ℕ) : Option ℕ :=
  (List.range reach).find? fun n => m (p + n) = 0

/-- The bytes before the first zero byte. -/
def cString (reach : ℕ) (m : Mem) (p : ℕ) : Option (List UInt8) :=
  (m.strlen reach p).map (m.load p)

variable {reach : ℕ} {m m' : Mem} {a p n : ℕ} {text bs : List UInt8}

theorem strlen_eq_some_iff :
    m.strlen reach p = some n ↔ n < reach ∧ m (p + n) = 0 ∧ ∀ i < n, m (p + i) ≠ 0 := by
  simp only [strlen, List.find?_range_eq_some, decide_eq_true_eq, List.mem_range,
    Bool.not_eq_true', decide_eq_false_iff_not]
  tauto

@[simp] theorem getElem_load (i : ℕ) (h : i < (m.load a n).length) :
    (m.load a n)[i] = m (a + i) := by
  simp [load]

theorem cString_eq_some_iff :
    m.cString reach p = some text ↔
      text.length < reach ∧ m (p + text.length) = 0 ∧ m.load p text.length = text ∧
        ∀ i < text.length, m (p + i) ≠ 0 := by
  rw [cString, Option.map_eq_some_iff]
  constructor
  · rintro ⟨n, hn, rfl⟩
    obtain ⟨hreach, hzero, hbytes⟩ := strlen_eq_some_iff.mp hn
    simpa using ⟨hreach, hzero, hbytes⟩
  · rintro ⟨hreach, hzero, hload, hbytes⟩
    exact ⟨text.length, strlen_eq_some_iff.mpr ⟨hreach, hzero, hbytes⟩, hload⟩

/-- The bytes of a text are those in memory. -/
theorem getElem_cString (h : m.cString reach p = some text) {i : ℕ} (hi : i < text.length) :
    text[i] = m (p + i) := by
  obtain ⟨-, -, hload, -⟩ := cString_eq_some_iff.mp h
  have hi' : i < (m.load p text.length).length := by simpa using hi
  rw [← getElem_load i hi']
  simp only [hload]

/-- What is stored is in memory. -/
theorem store_apply (m : Mem) (a : ℕ) {i : ℕ} (hi : i < bs.length) :
    m.store a bs (a + i) = bs[i] := by
  simp [store, List.getElem?_eq_getElem hi]

/-- A text that is stored is read back if and only if the byte behind it is zero. -/
theorem cString_store_iff (h : m.cString reach p = some text) :
    (m.store a text).cString reach a = some text ↔ m (a + text.length) = 0 := by
  obtain ⟨hreach, -, -, hbytes⟩ := cString_eq_some_iff.mp h
  have hbehind : m.store a text (a + text.length) = m (a + text.length) :=
    store_apply_of_le m text le_rfl
  rw [cString_eq_some_iff, hbehind]
  constructor
  · exact fun h' => h'.2.1
  · intro hzero
    refine ⟨hreach, hzero, load_store_same m a text, ?_⟩
    intro i hi
    rw [store_apply m a hi, getElem_cString h hi]
    exact hbytes i hi

end Memory.Mem
