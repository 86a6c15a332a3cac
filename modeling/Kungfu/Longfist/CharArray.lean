import Kungfu.Longfist.StateTypes
import Kungfu.Logic.Run
import Kungfu.Memory.CString

/-!
# Arrays of characters

Texts of records are in arrays of a fixed length.  To assign a text to an array copies its
characters, as many as there are before its zero byte, and no zero byte behind them: what the array
held before may go on behind the new text, and a text that is longer than the array goes on behind
the array.
-/

namespace Kungfu.Longfist

open Memory

/-- There is no zero byte where a text should end. -/
structure Unterminated

namespace CharArray

variable (reach : ℕ)

/-- `array<char, N>::operator=`, for whatever `N`.  What is copied is read first; `memcpy` wants the
text and the array apart. -/
def assign (m : Mem) (a p : ℕ) : Except Unterminated Mem :=
  if a = p then .ok m
  else
    match m.cString reach p with
    | none => .error ⟨⟩
    | some text => .ok (m.store a text)

/-- A copy of a text to an array is exact: a text that is shorter than the array is in the array
afterwards, any other one has changed nothing outside of it. -/
structure Copied (length : ℕ) (m m' : Mem) (a p : ℕ) : Prop where
  text : ∀ text ∈ m.cString reach p, text.length < length → m'.cString reach a = some text
  outside : ∀ text ∈ m.cString reach p, length ≤ text.length →
    ∀ i, i < a ∨ a + length ≤ i → m' i = m i

/-- An array that a text is copied to exactly: there is a zero byte already where a short text ends,
and behind the array what a longer one goes on with. -/
def Clean (length : ℕ) (m : Mem) (a p : ℕ) : Prop :=
  a ≠ p → ∀ text ∈ m.cString reach p,
    if text.length < length then m (a + text.length) = 0
    else ∀ i < text.length, length ≤ i → m (a + i) = m (p + i)

instance (length : ℕ) (m : Mem) (a p : ℕ) : Decidable (Clean reach length m a p) :=
  inferInstanceAs (Decidable (_ → ∀ text ∈ m.cString reach p, _))

variable {reach} {length : ℕ} {m m' : Mem} {a p : ℕ} {text old new : List UInt8}

theorem assign_eq_ok (hne : a ≠ p) :
    assign reach m a p = .ok m' ↔ ∃ text, m.cString reach p = some text ∧ m' = m.store a text := by
  rw [assign, if_neg hne]
  cases m.cString reach p with
  | none => simp
  | some text => simp [eq_comm]

/-- An assignment copies a text exactly if and only if the array is clean. -/
theorem copied_iff (hrun : assign reach m a p = .ok m') :
    Copied reach length m m' a p ↔ Clean reach length m a p := by
  by_cases hself : a = p
  · subst hself
    rw [assign, if_pos rfl] at hrun
    cases hrun
    refine ⟨fun _ hne => absurd rfl hne, fun _ => ⟨fun text htext _ => htext, ?_⟩⟩
    exact fun _ _ _ _ _ => rfl
  · obtain ⟨text, htext, rfl⟩ := (assign_eq_ok hself).mp hrun
    have hmem : ∀ t, t ∈ m.cString reach p ↔ t = text := by simp [htext, eq_comm]
    by_cases hshort : text.length < length
    · constructor
      · intro hcopied hne t ht
        obtain rfl := (hmem t).mp ht
        rw [if_pos hshort]
        exact (Mem.cString_store_iff htext).mp (hcopied.text t ht hshort)
      · intro hclean
        have hzero := hclean hself text htext
        rw [if_pos hshort] at hzero
        refine ⟨?_, ?_⟩
        · intro t ht _
          obtain rfl := (hmem t).mp ht
          exact (Mem.cString_store_iff htext).mpr hzero
        · intro t ht hlong
          obtain rfl := (hmem t).mp ht
          omega
    · constructor
      · intro hcopied hne t ht
        obtain rfl := (hmem t).mp ht
        rw [if_neg hshort]
        intro i hi hbehind
        rw [← hcopied.outside t ht (by omega) (a + i) (.inr (by omega)), Mem.store_apply m a hi,
          Mem.getElem_cString htext hi]
      · intro hclean
        have hsame := hclean hself text htext
        rw [if_neg hshort] at hsame
        refine ⟨?_, ?_⟩
        · intro t ht hlt
          obtain rfl := (hmem t).mp ht
          exact absurd hlt hshort
        · intro t ht _ i hi
          by_cases hin : a ≤ i ∧ i < a + text.length
          · obtain ⟨k, rfl⟩ := Nat.exists_eq_add_of_le hin.1
            have hk : k < text.length := by omega
            rw [Mem.store_apply m a hk, Mem.getElem_cString htext hk, hsame k hk (by omega)]
          · exact Mem.store_apply_of_disjoint m text (by omega)

/-- In an array that holds nothing behind its text, assignment is that of texts: what is left of a
longer one stays. -/
theorem cString_assign (hold : m.cString reach a = some old) (hnew : m.cString reach p = some new)
    (hpadded : ∀ i < length, old.length ≤ i → m (a + i) = 0) (hfits : new.length < length)
    (hrun : assign reach m a p = .ok m') : m'.cString reach a = some (assignText old new) := by
  by_cases hself : a = p
  · subst hself
    rw [assign, if_pos rfl] at hrun
    cases hrun
    rw [hold] at hnew
    cases hnew
    rw [assignText_self, hold]
  · obtain ⟨text, htext, rfl⟩ := (assign_eq_ok hself).mp hrun
    rw [hnew] at htext
    cases htext
    by_cases hle : old.length ≤ new.length
    · rw [assignText_eq_right.mpr hle]
      exact (Mem.cString_store_iff hnew).mpr (hpadded _ hfits hle)
    · obtain ⟨hreach, hzero, -, hbytes⟩ := Mem.cString_eq_some_iff.mp hold
      obtain ⟨-, -, -, hbytes'⟩ := Mem.cString_eq_some_iff.mp hnew
      have hlength : (assignText old new).length = old.length := by
        rw [length_assignText]
        omega
      have hbyte : ∀ i (hi : i < old.length),
          m.store a new (a + i) = (assignText old new)[i] := by
        intro i hi
        by_cases hin : i < new.length
        · rw [Mem.store_apply m a hin]
          simp [assignText, hin]
        · have hright : (assignText old new)[i] = old[i] := by
            simp only [assignText, List.getElem_append, hin, dif_neg, not_false_eq_true,
              List.getElem_drop]
            congr 1
            omega
          rw [Mem.store_apply_of_le m new (by omega), hright, Mem.getElem_cString hold hi]
      rw [Mem.cString_eq_some_iff, hlength]
      refine ⟨hreach, ?_, ?_, ?_⟩
      · rw [Mem.store_apply_of_le m new (by omega)]
        exact hzero
      · apply List.ext_getElem (by simp [hlength])
        intro i hi hi'
        rw [Mem.getElem_load, hbyte i (by simpa using hi)]
      · intro i hi
        by_cases hin : i < new.length
        · rw [Mem.store_apply m a hin, Mem.getElem_cString hnew hin]
          exact hbytes' i hin
        · rw [Mem.store_apply_of_le m new (by omega)]
          exact hbytes i hi

end CharArray

/-! ## Records -/

/-- How a field is assigned: by the characters of its text, or by all its bytes, as numbers,
enumerations and other arrays are. -/
inductive FieldKind
  | chars (length : ℕ)
  | other (width : ℕ)
  deriving DecidableEq, Repr

/-- `sizeof`. -/
def FieldKind.size : FieldKind → ℕ
  | chars length => length
  | other width => width

structure Field where
  offset : ℕ
  kind : FieldKind
  deriving DecidableEq, Repr

/-- Where the field ends. -/
def Field.bound (f : Field) : ℕ := f.offset + f.kind.size

/-- The fields of a record, in the order of their addresses. -/
structure Layout where
  size : ℕ
  fields : List Field
  inside : ∀ f ∈ fields, f.bound ≤ size
  ordered : fields.Pairwise fun f g => f.bound ≤ g.offset

namespace CharArray

variable (reach a p : ℕ)

/-- The assignment of a field of the record at `p` to that of the record at `a`. -/
def assignField (m : Mem) (f : Field) : Except Unterminated Mem :=
  match f.kind with
  | .chars _ => assign reach m (a + f.offset) (p + f.offset)
  | .other width => .ok (m.store (a + f.offset) (m.load (p + f.offset) width))

/-- The assignment of a record: of one field after another. -/
def assignRecord (layout : Layout) (m : Mem) : Except Unterminated Mem :=
  layout.fields.foldlM (assignField reach a p) m

/-- The assignment of a field copies its text exactly. -/
def FieldCopied (m : Mem) (f : Field) : Prop :=
  match f.kind with
  | .chars length => ∀ m', assign reach m (a + f.offset) (p + f.offset) = .ok m' →
      Copied reach length m m' (a + f.offset) (p + f.offset)
  | .other _ => True

/-- The array that a text is assigned to, if it is one, is clean. -/
def FieldClean (m : Mem) (f : Field) : Prop :=
  match f.kind with
  | .chars length => Clean reach length m (a + f.offset) (p + f.offset)
  | .other _ => True

instance (m : Mem) (f : Field) : Decidable (FieldClean reach a p m f) :=
  match hf : f.kind with
  | .chars length =>
      decidable_of_iff (Clean reach length m (a + f.offset) (p + f.offset)) (by
        rw [FieldClean, hf])
  | .other _ => .isTrue (by rw [FieldClean, hf]; trivial)

/-- A field is equal to its source: its text, up to the zero byte or the end of the array, or all of
its bytes. -/
def FieldEqual (m m' : Mem) (f : Field) : Prop :=
  match f.kind with
  | .chars length => ∀ i < length, (∀ j < i, m (p + f.offset + j) ≠ 0) →
      m' (a + f.offset + i) = m (p + f.offset + i)
  | .other width => ∀ i < width, m' (a + f.offset + i) = m (p + f.offset + i)

/-- A record is copied: every text exactly, and in the end all fields are equal to their sources. -/
structure CopiedRecord (layout : Layout) (m m' : Mem) : Prop where
  copied : Logic.AlongM (assignField reach a p) (FieldCopied reach a p) m layout.fields
  equal : ∀ f ∈ layout.fields, FieldEqual a p m m' f

variable {reach a p} {m m' : Mem} {f : Field} {fields : List Field} {layout : Layout} {size : ℕ}

theorem fieldCopied_iff : FieldCopied reach a p m f ↔ FieldClean reach a p m f := by
  unfold FieldCopied FieldClean
  cases hf : f.kind with
  | other width => rfl
  | chars length =>
      dsimp only
      constructor
      · intro h hne text htext
        have hrun : assign reach m (a + f.offset) (p + f.offset) =
            .ok (m.store (a + f.offset) text) := (assign_eq_ok hne).mpr ⟨text, htext, rfl⟩
        exact (copied_iff hrun).mp (h _ hrun) hne text htext
      · intro h m' hrun
        exact (copied_iff hrun).mpr h

/-- What a clean copy of a field leaves: the field is equal to its source, and nothing else
changed. -/
theorem assignField_spec (hclean : FieldClean reach a p m f)
    (hrun : assignField reach a p m f = .ok m') :
    FieldEqual a p m m' f ∧ ∀ i, i < a + f.offset ∨ a + f.bound ≤ i → m' i = m i := by
  unfold assignField at hrun
  unfold FieldClean at hclean
  unfold FieldEqual Field.bound
  cases hf : f.kind with
  | other width =>
      simp only [hf, Except.ok.injEq] at hrun
      subst hrun
      dsimp only
      refine ⟨?_, ?_⟩
      · intro i hi
        rw [Mem.store_apply m _ (by simpa using hi), Mem.getElem_load]
      · intro i hi
        refine Mem.store_apply_of_disjoint m _ ?_
        simp only [FieldKind.size, Mem.length_load] at hi ⊢
        omega
  | chars length =>
      simp only [hf] at hrun hclean
      dsimp only [FieldKind.size]
      by_cases hself : a + f.offset = p + f.offset
      · rw [assign, if_pos hself] at hrun
        cases hrun
        exact ⟨fun i _ _ => by rw [hself], fun _ _ => rfl⟩
      · obtain ⟨text, htext, rfl⟩ := (assign_eq_ok hself).mp hrun
        have hhere := hclean hself text htext
        obtain ⟨-, hzero, -, -⟩ := Mem.cString_eq_some_iff.mp htext
        refine ⟨?_, ?_⟩
        · intro i hi hbefore
          by_cases hin : i < text.length
          · rw [Mem.store_apply m _ hin, Mem.getElem_cString htext hin]
          · -- the text ends here, and what is behind it was clean
            have hend : i = text.length := by
              by_contra hne
              exact hbefore text.length (by omega) hzero
            subst hend
            rw [if_pos hi] at hhere
            rw [Mem.store_apply_of_le m text le_rfl, hhere, hzero]
        · intro i hi
          by_cases hin : a + f.offset ≤ i ∧ i < a + f.offset + text.length
          · obtain ⟨k, rfl⟩ := Nat.exists_eq_add_of_le hin.1
            have hk : k < text.length := by omega
            have hlong : ¬ text.length < length := by omega
            rw [if_neg hlong] at hhere
            rw [Mem.store_apply m _ hk, Mem.getElem_cString htext hk, hhere k hk (by omega)]
          · exact Mem.store_apply_of_disjoint m text (by omega)

/-- A field stays equal to its source where neither of the two changes. -/
theorem FieldEqual.congr {m₁ m₁' : Mem} (h : FieldEqual a p m m' f)
    (hsource : ∀ i < f.kind.size, m₁ (p + f.offset + i) = m (p + f.offset + i))
    (htarget : ∀ i < f.kind.size, m₁' (a + f.offset + i) = m' (a + f.offset + i)) :
    FieldEqual a p m₁ m₁' f := by
  unfold FieldEqual at h ⊢
  cases hf : f.kind with
  | other width =>
      simp only [hf, FieldKind.size] at h hsource htarget ⊢
      intro i hi
      rw [htarget i hi, hsource i hi, h i hi]
  | chars length =>
      simp only [hf, FieldKind.size] at h hsource htarget ⊢
      intro i hi hbefore
      rw [htarget i hi, hsource i hi]
      refine h i hi fun j hj => ?_
      rw [← hsource j (hj.trans hi)]
      exact hbefore j hj

/-- Fields that are copied cleanly one after another are equal to their sources, and nothing but
them has changed. -/
theorem fields_spec (hapart : p + size ≤ a ∨ a + size ≤ p) (hinside : ∀ f ∈ fields, f.bound ≤ size)
    (hordered : fields.Pairwise fun f g => f.bound ≤ g.offset)
    (hclean : Logic.AlongM (assignField reach a p) (FieldClean reach a p) m fields)
    (hrun : fields.foldlM (assignField reach a p) m = .ok m') :
    (∀ f ∈ fields, FieldEqual a p m m' f) ∧
      ∀ i, (∀ f ∈ fields, i < a + f.offset ∨ a + f.bound ≤ i) → m' i = m i := by
  induction fields generalizing m with
  | nil =>
      cases hrun
      exact ⟨by simp, fun _ _ => rfl⟩
  | cons f fields ih =>
      obtain ⟨hhere, hrest⟩ := hclean
      rw [List.foldlM_cons] at hrun
      cases hstep : assignField reach a p m f with
      | error e =>
          rw [hstep] at hrun
          cases hrun
      | ok m₁ =>
          rw [hstep] at hrun hrest
          obtain ⟨hequal, hframe⟩ := assignField_spec hhere hstep
          obtain ⟨hbefore, hordered⟩ := List.pairwise_cons.mp hordered
          obtain ⟨hequal', hframe'⟩ := ih (fun g hg => hinside g (List.mem_cons_of_mem f hg))
            hordered hrest hrun
          have hf := hinside f List.mem_cons_self
          refine ⟨?_, ?_⟩
          · intro g hg
            rcases List.mem_cons.mp hg with rfl | hg'
            · refine hequal.congr (fun _ _ => rfl) fun i hi => hframe' _ fun g' hg' => .inl ?_
              have := hbefore g' hg'
              unfold Field.bound at this
              omega
            · refine (hequal' g hg').congr (fun i hi => (hframe _ ?_).symm) fun _ _ => rfl
              have := hinside g hg
              unfold Field.bound at this hf ⊢
              omega
          · intro i hi
            rw [hframe' i fun g hg => hi g (List.mem_cons_of_mem f hg),
              hframe i (hi f List.mem_cons_self)]

/-- A record that is assigned to itself stays as it is. -/
theorem fields_self (hrun : fields.foldlM (assignField reach a a) m = .ok m') : m' = m := by
  induction fields generalizing m with
  | nil =>
      cases hrun
      rfl
  | cons f fields ih =>
      rw [List.foldlM_cons] at hrun
      have hstep : assignField reach a a m f = .ok m := by
        unfold assignField
        cases f.kind with
        | chars length => exact if_pos rfl
        | other width =>
            have hstore : m.store (a + f.offset) (m.load (a + f.offset) width) = m := by
              funext i
              by_cases hin : a + f.offset ≤ i ∧ i < a + f.offset + width
              · obtain ⟨k, rfl⟩ := Nat.exists_eq_add_of_le hin.1
                rw [Mem.store_apply m _ (by simpa using hin.2), Mem.getElem_load]
              · refine Mem.store_apply_of_disjoint m _ ?_
                simp only [Mem.length_load]
                omega
            simp only [hstore]
      rw [hstep] at hrun
      exact ih hrun

/-- Texts, whole arrays and records are copied exactly to arrays that are clean for them, and to no
others. -/
theorem copied_iff_clean (reach : ℕ) :
    (∀ length m m' a p, assign reach m a p = .ok m' →
      (Copied reach length m m' a p ↔ Clean reach length m a p)) ∧
    ∀ (layout : Layout) m m' a p, a = p ∨ p + layout.size ≤ a ∨ a + layout.size ≤ p →
      assignRecord reach a p layout m = .ok m' →
      (CopiedRecord reach a p layout m m' ↔
        Logic.AlongM (assignField reach a p) (FieldClean reach a p) m layout.fields) := by
  refine ⟨fun length m m' a p hrun => copied_iff hrun, ?_⟩
  intro layout m m' a p hapart hrun
  constructor
  · intro hcopied
    exact hcopied.copied.mono fun _ _ => fieldCopied_iff.mp
  · intro hclean
    refine ⟨hclean.mono fun _ _ => fieldCopied_iff.mpr, ?_⟩
    rcases hapart with rfl | hapart
    · obtain rfl := fields_self hrun
      intro f _
      unfold FieldEqual
      cases f.kind with
      | chars length => exact fun _ _ _ => rfl
      | other width => exact fun _ _ => rfl
    · exact (fields_spec hapart layout.inside layout.ordered hclean hrun).1

/-- A record of a text and a number. -/
def exampleLayout : Layout where
  size := 12
  fields := [⟨0, .chars 8⟩, ⟨8, .other 4⟩]
  inside := by decide
  ordered := by decide

/-- A text of four characters at 0, of which the first two may be missing, and a text of two with a
number behind it at 100. -/
def exampleMem (full : Bool) : Mem := fun i =>
  if i = 100 then 97 else if i = 101 then 98 else if i = 108 then 1
  else if full ∧ i < 4 then 120 else 0

/-- An empty array takes the text, and the record around it is copied. -/
theorem copied_iff_clean_example :
    ∃ m' m'', assign 256 (exampleMem false) 0 100 = .ok m' ∧
      Copied 256 8 (exampleMem false) m' 0 100 ∧
      assignRecord 256 0 100 exampleLayout (exampleMem false) = .ok m'' ∧
      CopiedRecord 256 0 100 exampleLayout (exampleMem false) m'' := by
  refine ⟨_, _, rfl, ?_, rfl, ?_⟩
  · exact ((copied_iff_clean 256).1 8 _ _ 0 100 rfl).mpr (by decide +kernel)
  · exact ((copied_iff_clean 256).2 exampleLayout _ _ 0 100 (by decide) rfl).mpr (by decide +kernel)

/-- A text of two characters leaves the end of a longer one, and overruns an array of one. -/
theorem not_copied_of_longer :
    ∃ m', assign 256 (exampleMem true) 0 100 = .ok m' ∧
      (exampleMem true).cString 256 100 = some [97, 98] ∧
      m'.cString 256 0 = some [97, 98, 120, 120] ∧
      ¬ Copied 256 8 (exampleMem true) m' 0 100 ∧
      m' 1 ≠ exampleMem true 1 ∧ ¬ Copied 256 1 (exampleMem true) m' 0 100 := by
  have htext : (exampleMem true).cString 256 100 = some [97, 98] := by decide +kernel
  refine ⟨_, rfl, htext, by decide +kernel, ?_, by decide +kernel, ?_⟩
  · intro hcopied
    exact absurd (hcopied.text _ htext (by decide)) (by decide +kernel)
  · intro hcopied
    exact absurd (hcopied.outside _ htext (by decide) 1 (.inr le_rfl)) (by decide +kernel)

end CharArray

end Kungfu.Longfist
