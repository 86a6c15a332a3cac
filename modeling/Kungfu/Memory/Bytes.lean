import Mathlib.Data.Set.Function
import Mathlib.Order.Interval.Set.Defs
import Mathlib.Tactic.Ring

/-!
# Byte memory with little-endian scalars

A memory is a total map from addresses to bytes.  `load` and `store` move byte
lists, `get` and `put` move scalars in their little-endian encoding, and every
rule is of one of two shapes: what was stored is what is loaded back at the same
place, and a store leaves alone every range it does not touch.
-/

namespace Memory

/-! ## The little-endian codec -/

/-- The low `n` bytes of `v`, least significant first. -/
def leBytes : ℕ → ℕ → List UInt8
  | 0, _ => []
  | n + 1, v => UInt8.ofNat (v % 256) :: leBytes n (v / 256)

/-- The number a little-endian byte list encodes. -/
def leNat : List UInt8 → ℕ
  | [] => 0
  | b :: bs => b.toNat + 256 * leNat bs

@[simp] theorem length_leBytes (n v : ℕ) : (leBytes n v).length = n := by
  induction n generalizing v with
  | zero => rfl
  | succ n ih => simp [leBytes, ih]

theorem leNat_leBytes (n v : ℕ) : leNat (leBytes n v) = v % 256 ^ n := by
  induction n generalizing v with
  | zero => simp [leBytes, leNat, Nat.mod_one]
  | succ n ih =>
      have hbyte : (UInt8.ofNat (v % 256)).toNat = v % 256 := by simp
      rw [leBytes, leNat, ih, hbyte, pow_succ, Nat.mul_comm (256 ^ n), Nat.mod_mul]

theorem leBytes_leNat (bs : List UInt8) : leBytes bs.length (leNat bs) = bs := by
  induction bs with
  | nil => rfl
  | cons b bs ih =>
      have hlow : (b.toNat + 256 * leNat bs) % 256 = b.toNat := by
        have := b.toNat_lt
        omega
      have hhigh : (b.toNat + 256 * leNat bs) / 256 = leNat bs := by
        have := b.toNat_lt
        omega
      rw [List.length_cons, leBytes, leNat, hlow, hhigh, ih, UInt8.ofNat_toNat]

/-- A type stored in a fixed number of bytes.  `ofBits_toBits` is the whole
contract: an encoded value decodes to itself. -/
class Scalar (α : Type) where
  /-- Storage size in bytes. -/
  width : ℕ
  /-- The unsigned number whose bytes are stored. -/
  toBits : α → ℕ
  /-- Decoding of a stored number. -/
  ofBits : ℕ → α
  toBits_lt : ∀ x, toBits x < 256 ^ width
  ofBits_toBits : ∀ x, ofBits (toBits x) = x

instance : Scalar UInt32 where
  width := 4
  toBits := UInt32.toNat
  ofBits := UInt32.ofNat
  toBits_lt x := x.toNat_lt
  ofBits_toBits x := by simp

instance : Scalar UInt64 where
  width := 8
  toBits := UInt64.toNat
  ofBits := UInt64.ofNat
  toBits_lt x := x.toNat_lt
  ofBits_toBits x := by simp

instance : Scalar Int32 where
  width := 4
  toBits x := x.toBitVec.toNat
  ofBits v := Int32.ofBitVec (BitVec.ofNat 32 v)
  toBits_lt x := x.toBitVec.isLt
  ofBits_toBits x := by simp

instance : Scalar Int64 where
  width := 8
  toBits x := x.toBitVec.toNat
  ofBits v := Int64.ofBitVec (BitVec.ofNat 64 v)
  toBits_lt x := x.toBitVec.isLt
  ofBits_toBits x := by simp

@[simp] theorem width_uint32 : Scalar.width UInt32 = 4 := rfl
@[simp] theorem width_uint64 : Scalar.width UInt64 = 8 := rfl
@[simp] theorem width_int32 : Scalar.width Int32 = 4 := rfl
@[simp] theorem width_int64 : Scalar.width Int64 = 8 := rfl

/-! ## Memory -/

/-- A memory: one byte at every address. -/
abbrev Mem := ℕ → UInt8

namespace Mem

variable {α β : Type} [Scalar α] [Scalar β]

/-- The `n` bytes from `a` on. -/
def load (m : Mem) (a n : ℕ) : List UInt8 := (List.range n).map fun i => m (a + i)

/-- Overwrite the bytes from `a` on with `bs`. -/
def store (m : Mem) (a : ℕ) (bs : List UInt8) : Mem := fun i =>
  if a ≤ i then (bs[i - a]?).getD (m i) else m i

/-- The scalar stored at `a`. -/
def get (α : Type) [Scalar α] (m : Mem) (a : ℕ) : α :=
  Scalar.ofBits (leNat (m.load a (Scalar.width α)))

/-- Store a scalar at `a`. -/
def put (m : Mem) (a : ℕ) (x : α) : Mem :=
  m.store a (leBytes (Scalar.width α) (Scalar.toBits x))

@[simp] theorem length_load (m : Mem) (a n : ℕ) : (m.load a n).length = n := by simp [load]

@[simp] theorem load_zero (m : Mem) (a : ℕ) : m.load a 0 = [] := rfl

/-! ### What a store leaves alone -/

theorem store_apply_of_lt (m : Mem) (bs : List UInt8) {a i : ℕ} (h : i < a) :
    m.store a bs i = m i := by
  simp only [store, if_neg (Nat.not_le.mpr h)]

theorem store_apply_of_le (m : Mem) (bs : List UInt8) {a i : ℕ} (h : a + bs.length ≤ i) :
    m.store a bs i = m i := by
  have hnone : bs[i - a]? = none := List.getElem?_eq_none (by omega)
  simp [store, hnone]

/-- A store keeps every byte outside the range it writes. -/
theorem store_apply_of_disjoint (m : Mem) (bs : List UInt8) {a i : ℕ}
    (h : i < a ∨ a + bs.length ≤ i) : m.store a bs i = m i := by
  rcases h with h | h
  · exact store_apply_of_lt m bs h
  · exact store_apply_of_le m bs h

/-- A store keeps every range it does not meet. -/
theorem eqOn_store (m : Mem) (bs : List UInt8) {a lo hi : ℕ}
    (h : hi ≤ a ∨ a + bs.length ≤ lo) : Set.EqOn (m.store a bs) m (Set.Ico lo hi) := by
  intro i hi'
  have hlo := hi'.1
  have hhi := hi'.2
  exact store_apply_of_disjoint m bs (by omega)

/-! ### Loads depend on the bytes they cover -/

theorem load_congr {m m' : Mem} {a b n : ℕ} (h : ∀ i < n, m (a + i) = m' (b + i)) :
    m.load a n = m'.load b n :=
  List.map_congr_left fun i hi => h i (List.mem_range.mp hi)

theorem load_eqOn {m m' : Mem} {lo hi a n : ℕ} (h : Set.EqOn m m' (Set.Ico lo hi))
    (hlo : lo ≤ a) (hhi : a + n ≤ hi) : m.load a n = m'.load a n :=
  load_congr fun i hi' => h ⟨by omega, by omega⟩

theorem get_congr {m m' : Mem} {a b : ℕ}
    (h : ∀ i < Scalar.width α, m (a + i) = m' (b + i)) : get α m a = get α m' b := by
  simp only [get, load_congr h]

theorem get_eqOn {m m' : Mem} {lo hi a : ℕ} (h : Set.EqOn m m' (Set.Ico lo hi))
    (hlo : lo ≤ a) (hhi : a + Scalar.width α ≤ hi) : get α m a = get α m' a := by
  simp only [get, load_eqOn h hlo hhi]

/-! ### Reading back -/

theorem load_store_same (m : Mem) (a : ℕ) (bs : List UInt8) :
    (m.store a bs).load a bs.length = bs := by
  refine List.ext_getElem (by simp) fun i hi hi' => ?_
  simp [load, store, List.getElem?_eq_getElem hi']

theorem load_store_of_disjoint (m : Mem) (bs : List UInt8) {a b n : ℕ}
    (h : b + n ≤ a ∨ a + bs.length ≤ b) : (m.store a bs).load b n = m.load b n :=
  load_eqOn (eqOn_store m bs h) le_rfl le_rfl

theorem get_store_of_disjoint (m : Mem) (bs : List UInt8) {a b : ℕ}
    (h : b + Scalar.width α ≤ a ∨ a + bs.length ≤ b) :
    get α (m.store a bs) b = get α m b := by
  simp only [get, load_store_of_disjoint m bs h]

@[simp] theorem get_put_same (m : Mem) (a : ℕ) (x : α) : get α (m.put a x) a = x := by
  have hload : (m.put a x).load a (Scalar.width α) =
      leBytes (Scalar.width α) (Scalar.toBits x) := by
    simpa [put] using load_store_same m a (leBytes (Scalar.width α) (Scalar.toBits x))
  rw [get, hload, leNat_leBytes, Nat.mod_eq_of_lt (Scalar.toBits_lt x), Scalar.ofBits_toBits]

theorem get_put_of_disjoint (m : Mem) (x : β) {a b : ℕ}
    (h : b + Scalar.width α ≤ a ∨ a + Scalar.width β ≤ b) :
    get α (m.put a x) b = get α m b :=
  get_store_of_disjoint m _ (by simpa using h)

theorem load_put_of_disjoint (m : Mem) (x : α) {a b n : ℕ}
    (h : b + n ≤ a ∨ a + Scalar.width α ≤ b) : (m.put a x).load b n = m.load b n :=
  load_store_of_disjoint m _ (by simpa using h)

theorem eqOn_put (m : Mem) (x : α) {a lo hi : ℕ}
    (h : hi ≤ a ∨ a + Scalar.width α ≤ lo) : Set.EqOn (m.put a x) m (Set.Ico lo hi) :=
  eqOn_store m _ (by simpa using h)

/-- A scalar inside a zeroed range reads as the value of zero bits. -/
theorem get_of_zero {m : Mem} {a : ℕ} (h : ∀ i < Scalar.width α, m (a + i) = 0) :
    get α m a = Scalar.ofBits 0 := by
  have hload : m.load a (Scalar.width α) = List.replicate (Scalar.width α) 0 := by
    refine List.ext_getElem (by simp) fun i hi _ => ?_
    simpa [load] using h i (by simpa using hi)
  have hzero : ∀ n, leNat (List.replicate n 0) = 0 := by
    intro n
    induction n with
    | zero => rfl
    | succ n ih => simp [List.replicate_succ, leNat, ih]
  rw [get, hload, hzero]

end Mem

end Memory
