import Kungfu.Memory.Bytes
import Mathlib.Algebra.BigOperators.Group.List.Basic

/-!
# Frames

A frame is a packed 36-byte header followed by its data.  The fields are read and
written at their byte offsets, so a frame that was only half overwritten is seen
the way the code sees it.  A store past the mapping of its page is a fault.
-/

namespace Kungfu.Yijinjing

open Memory

/-- `sizeof(frame_header)`. -/
def frameHeaderSize : ℕ := 36

/-- `sizeof(page_header)`. -/
def pageHeaderSize : ℕ := 24

/-- `longfist::types::PageEnd::tag`. -/
def pageEndTag : Int32 := 10000

/-- Whether `assert` is compiled in. -/
inductive Build
  /-- Assertions abort the process. -/
  | checked
  /-- `NDEBUG`: assertions are not evaluated. -/
  | release
  deriving DecidableEq, Repr

/-- A thrown `journal_error`, with the numbers its text reports. -/
inductive JournalError
  /-- "page file … not ready (size …)". -/
  | notReady (size : ℕ)
  /-- "… version mismatch, required 4, found …". -/
  | versionMismatch (found : UInt32)
  /-- "… header length mismatch, required 24, found …". -/
  | headerLengthMismatch (found : UInt32)
  /-- "page size mismatch, required …, found …". -/
  | pageSizeMismatch (required found : UInt32)
  /-- "Can not lock writer for …". -/
  | cannotLock
  deriving DecidableEq, Repr

/-- The ways an operation fails to complete. -/
inductive Fault
  /-- A `journal_error` was thrown. -/
  | journalError (e : JournalError)
  /-- A compiled-in assertion failed. -/
  | assertion
  /-- A null page or frame pointer was followed. -/
  | nullFrame
  /-- A store lands past the mapping of its page. -/
  | outOfMapping
  /-- A store goes through a read-only mapping. -/
  | readOnlyMapping
  /-- A seek loop did not stop within its fuel. -/
  | outOfFuel
  deriving DecidableEq, Repr

/-- `assert(p)`. -/
def assertThat (b : Build) (p : Prop) [Decidable p] : Except Fault Unit :=
  if b = .release ∨ p then .ok () else .error .assertion

@[simp] theorem assertThat_of_true (b : Build) {p : Prop} [Decidable p] (h : p) :
    assertThat b p = .ok () := by simp [assertThat, h]

/-- The result of a run that completed passes a test. -/
def okAnd {ε α : Type} (x : Except ε α) (test : α → Bool) : Bool :=
  match x with
  | .ok a => test a
  | .error _ => false

theorem exists_of_okAnd {ε α : Type} {x : Except ε α} {test : α → Bool}
    (h : okAnd x test = true) : ∃ a, x = .ok a ∧ test a = true := by
  cases x with
  | ok a => exact ⟨a, rfl, h⟩
  | error e => exact absurd h Bool.false_ne_true

/-- The run failed with this fault. -/
def faults {α : Type} (fault : Fault) (x : Except Fault α) : Bool :=
  match x with
  | .ok _ => false
  | .error e => decide (e = fault)

theorem eq_error_of_faults {α : Type} {fault : Fault} {x : Except Fault α}
    (h : faults fault x = true) : x = .error fault := by
  cases x with
  | ok a => exact absurd h Bool.false_ne_true
  | error e => rw [of_decide_eq_true h]

/-! ## Stores inside a mapping of `size` bytes -/

/-- `memcpy` into a mapping. -/
def storeAt (size : ℕ) (m : Mem) (a : ℕ) (bs : List UInt8) : Except Fault Mem :=
  if a + bs.length ≤ size then .ok (m.store a bs) else .error .outOfMapping

/-- Assignment of a scalar inside a mapping. -/
def putAt {α : Type} [Scalar α] (size : ℕ) (m : Mem) (a : ℕ) (x : α) : Except Fault Mem :=
  if a + Scalar.width α ≤ size then .ok (m.put a x) else .error .outOfMapping

theorem storeAt_ok {size a : ℕ} (m : Mem) {bs : List UInt8} (h : a + bs.length ≤ size) :
    storeAt size m a bs = .ok (m.store a bs) := if_pos h

theorem putAt_ok {α : Type} [Scalar α] {size a : ℕ} (m : Mem) (x : α)
    (h : a + Scalar.width α ≤ size) : putAt size m a x = .ok (m.put a x) := if_pos h

/-! ## Header fields -/

namespace FrameHeader

def frameLength (m : Mem) (a : ℕ) : UInt32 := m.get UInt32 a
def headerLength (m : Mem) (a : ℕ) : UInt32 := m.get UInt32 (a + 4)
def genTime (m : Mem) (a : ℕ) : Int64 := m.get Int64 (a + 8)
def triggerTime (m : Mem) (a : ℕ) : Int64 := m.get Int64 (a + 16)
def msgType (m : Mem) (a : ℕ) : Int32 := m.get Int32 (a + 24)
def source (m : Mem) (a : ℕ) : UInt32 := m.get UInt32 (a + 28)
def dest (m : Mem) (a : ℕ) : UInt32 := m.get UInt32 (a + 32)

/-- `frame::data_length`, in the code's 32-bit arithmetic. -/
def dataLength (m : Mem) (a : ℕ) : UInt32 := frameLength m a - headerLength m a

/-- `frame::has_data`. -/
def hasData (m : Mem) (a : ℕ) : Bool := decide (0 < frameLength m a) && decide (0 < msgType m a)

end FrameHeader

/-! ## Frames as values -/

/-- A frame as a reader copies it out of a page. -/
structure Frame where
  genTime : Int64
  triggerTime : Int64
  msgType : Int32
  source : UInt32
  dest : UInt32
  data : List UInt8
  deriving DecidableEq, Repr

/-- Bytes a frame occupies, header included. -/
def Frame.length (f : Frame) : ℕ := frameHeaderSize + f.data.length

/-- The frame at offset `a`. -/
def Frame.read (m : Mem) (a : ℕ) : Frame where
  genTime := FrameHeader.genTime m a
  triggerTime := FrameHeader.triggerTime m a
  msgType := FrameHeader.msgType m a
  source := FrameHeader.source m a
  dest := FrameHeader.dest m a
  data := m.load (a + (FrameHeader.headerLength m a).toNat) (FrameHeader.dataLength m a).toNat

/-- The bytes at offset `a` are the frame `f`, with its two length fields. -/
structure FrameAt (m : Mem) (a : ℕ) (f : Frame) : Prop where
  frameLength : (FrameHeader.frameLength m a).toNat = f.length
  headerLength : (FrameHeader.headerLength m a).toNat = frameHeaderSize
  genTime : FrameHeader.genTime m a = f.genTime
  triggerTime : FrameHeader.triggerTime m a = f.triggerTime
  msgType : FrameHeader.msgType m a = f.msgType
  source : FrameHeader.source m a = f.source
  dest : FrameHeader.dest m a = f.dest
  data : m.load (a + frameHeaderSize) f.data.length = f.data

theorem Frame.length_ge (f : Frame) : frameHeaderSize ≤ f.length := Nat.le_add_right _ _

theorem Frame.length_pos (f : Frame) : 0 < f.length :=
  Nat.lt_of_lt_of_le (by decide) f.length_ge

theorem FrameAt.dataLength {m : Mem} {a : ℕ} {f : Frame} (H : FrameAt m a f) :
    (FrameHeader.dataLength m a).toNat = f.data.length := by
  have hle : FrameHeader.headerLength m a ≤ FrameHeader.frameLength m a := by
    rw [UInt32.le_iff_toNat_le, H.frameLength, H.headerLength]
    exact f.length_ge
  rw [FrameHeader.dataLength, UInt32.toNat_sub_of_le _ _ hle, H.frameLength, H.headerLength,
    Frame.length, Nat.add_sub_cancel_left]

/-- Reading decodes exactly what the bytes represent. -/
theorem FrameAt.read_eq {m : Mem} {a : ℕ} {f : Frame} (H : FrameAt m a f) :
    Frame.read m a = f := by
  rcases f with ⟨g, t, ty, s, d, bs⟩
  simp only [Frame.read, H.headerLength, H.dataLength, H.genTime, H.triggerTime, H.msgType,
    H.source, H.dest, Frame.mk.injEq, true_and]
  exact H.data

theorem FrameAt.hasData_iff {m : Mem} {a : ℕ} {f : Frame} (H : FrameAt m a f) :
    FrameHeader.hasData m a = decide (0 < f.msgType) := by
  have hpos : 0 < FrameHeader.frameLength m a := by
    rw [UInt32.lt_iff_toNat_lt, H.frameLength]
    exact f.length_pos
  simp [FrameHeader.hasData, hpos, H.msgType]

/-- A frame is determined by the bytes it covers: copying them copies it. -/
theorem FrameAt.congr {m m' : Mem} {a b : ℕ} {f : Frame} (H : FrameAt m a f)
    (h : ∀ i < f.length, m' (b + i) = m (a + i)) : FrameAt m' b f := by
  have hlen : 36 ≤ f.length := f.length_ge
  have hfield : ∀ {α : Type} [Scalar α] (k : ℕ), k + Scalar.width α ≤ 36 →
      m'.get α (b + k) = m.get α (a + k) := by
    intro α _ k hk
    refine Mem.get_congr fun i hi => ?_
    simpa only [Nat.add_assoc] using h (k + i) (by omega)
  refine ⟨?_, ?_, ?_, ?_, ?_, ?_, ?_, ?_⟩
  · rw [← H.frameLength]; exact congrArg _ (hfield 0 (by simp))
  · rw [← H.headerLength]; exact congrArg _ (hfield 4 (by simp))
  · rw [← H.genTime]; exact hfield 8 (by simp)
  · rw [← H.triggerTime]; exact hfield 16 (by simp)
  · rw [← H.msgType]; exact hfield 24 (by simp)
  · rw [← H.source]; exact hfield 28 (by simp)
  · rw [← H.dest]; exact hfield 32 (by simp)
  · rw [← H.data]
    simp only [Mem.length_load]
    refine Mem.load_congr fun i hi => ?_
    have hi' : frameHeaderSize + i < f.length := by simp only [Frame.length]; omega
    simpa only [Nat.add_assoc] using h (frameHeaderSize + i) hi'

/-- A frame survives every change outside the bytes it covers. -/
theorem FrameAt.eqOn {m m' : Mem} {a lo hi : ℕ} {f : Frame} (H : FrameAt m a f)
    (h : Set.EqOn m' m (Set.Ico lo hi)) (hlo : lo ≤ a) (hhi : a + f.length ≤ hi) :
    FrameAt m' a f :=
  H.congr fun _ hi' => h ⟨by omega, by omega⟩

end Kungfu.Yijinjing
