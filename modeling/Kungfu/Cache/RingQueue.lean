import Kungfu.Logic.Run
import Kungfu.Logic.Smear
import Mathlib.Data.List.Basic

/-!
# The ring queue of trading data

One thread pushes and one pops.  Both counters run freely, and their low bits are the slots.  A push
writes its element to the slot behind the last one and moves the tail if there is room; if there is
none it says all the same that it has pushed.
-/

namespace Kungfu.Cache.RingQueue

open Logic

/-- The memory of a queue.  A slot that was never written has no element. -/
structure Queue (α : Type) where
  capacityMask : UInt64
  capacity : UInt64
  queue : List (Option α)
  tail : UInt64
  head : UInt64

/-- The mask of the slots: the requested capacity less one, with all bits below its highest one. -/
def capacityMaskOf (capacity : UInt64) : UInt64 :=
  ([1, 2, 4, 8, 16, 32] : List UInt64).foldl (fun mask i => mask ||| mask >>> i) (capacity - 1)

/-- The constructor, for elements of a size.  The bytes that are allocated are computed in 64
bits. -/
def Queue.make (α : Type) (size : ℕ) (capacity : UInt64) : Queue α :=
  let capacityMask := capacityMaskOf capacity
  { capacityMask := capacityMask
    capacity := capacityMask + 1
    queue := List.replicate (size * (capacityMask + 1).toNat % 2 ^ 64 / size) none
    tail := 0
    head := 0 }

namespace Queue

variable {α : Type}

/-- The slot of a counter. -/
def slot (q : Queue α) (i : UInt64) : ℕ := (i &&& q.capacityMask).toNat

/-- The slot is in the memory that is allocated. -/
def Inside (q : Queue α) (i : UInt64) : Prop := q.slot i < q.queue.length

instance (q : Queue α) (i : UInt64) : Decidable (q.Inside i) :=
  inferInstanceAs (Decidable (_ < _))

/-- The element in a slot. -/
def read (q : Queue α) (i : UInt64) : Option α := q.queue[q.slot i]?.join

def write (q : Queue α) (i : UInt64) (x : α) : Queue α :=
  { q with queue := q.queue.set (q.slot i) (some x) }

/-- The elements that wait to be popped. -/
def waiting (q : Queue α) : List (Option α) :=
  (List.range' q.head.toNat (q.tail.toNat - q.head.toNat)).map fun i => q.read (UInt64.ofNat i)

end Queue

/-- Where `push` is. -/
inductive Producer (α : Type)
  | idle
  | tailLoaded (x : α) (tail : UInt64)
  | loaded (x : α) (tail head : UInt64)
  | written (x : α) (tail head : UInt64)

/-- Where `pop` is. -/
inductive Consumer (α : Type)
  | idle
  | headLoaded (head : UInt64)
  | loaded (head tail : UInt64)
  | copied (head : UInt64) (value : Option α)

/-- The queue with its two threads, the elements whose push has returned true, which every push does,
and those that were popped. -/
structure State (α : Type) where
  queue : Queue α
  producer : Producer α
  consumer : Consumer α
  pushed : List α
  popped : List (Option α)
  /-- Memory was accessed that the queue does not own. -/
  overrun : Bool

def State.init (α : Type) (size : ℕ) (capacity : UInt64) : State α :=
  ⟨.make α size capacity, .idle, .idle, [], [], false⟩

/-- Who goes on. -/
inductive Move (α : Type)
  | push (x : α)
  | produce
  | pop
  | consume

variable {α : Type}

namespace State

/-- `push` is called, and goes on by one access to the queue. -/
def produce (s : State α) : State α :=
  match s.producer with
  | .idle => s
  | .tailLoaded x tail => { s with producer := .loaded x tail s.queue.head }
  | .loaded x tail head =>
      if s.queue.Inside tail then
        { s with queue := s.queue.write tail x, producer := .written x tail head }
      else { s with producer := .written x tail head, overrun := true }
  | .written x tail head =>
      let queue :=
        if tail - head < s.queue.capacity - 1 then { s.queue with tail := s.queue.tail + 1 }
        else s.queue
      { s with
        queue := queue
        producer := .idle
        pushed := s.pushed ++ [x] }

/-- `pop` goes on by one access to the queue. -/
def consume (s : State α) : State α :=
  match s.consumer with
  | .idle => s
  | .headLoaded head => { s with consumer := .loaded head s.queue.tail }
  | .loaded head tail =>
      if tail ≤ head then { s with consumer := .idle }
      else if s.queue.Inside head then { s with consumer := .copied head (s.queue.read head) }
      else { s with consumer := .copied head none, overrun := true }
  | .copied _ value =>
      { s with
        queue := { s.queue with head := s.queue.head + 1 }
        consumer := .idle
        popped := s.popped ++ [value] }

/-- A thread that is called goes on until it returns, and is not called before. -/
def step (s : State α) (move : Move α) : State α :=
  match move with
  | .push x =>
      match s.producer with
      | .idle => { s with producer := .tailLoaded x s.queue.tail }
      | _ => s
  | .pop =>
      match s.consumer with
      | .idle => { s with consumer := .headLoaded s.queue.head }
      | _ => s
  | .produce => s.produce
  | .consume => s.consume

end State

/-- Every element whose push returned true was popped or waits to be, once and in this order. -/
structure Lossless (s : State α) : Prop where
  inside : s.overrun = false
  fifo : s.pushed.map some = s.popped ++ s.queue.waiting

/-- A push writes to the queue's memory, and finds room when it moves the tail, which does not begin
again. -/
def Stores (s : State α) (move : Move α) : Prop :=
  match move with
  | .produce =>
      match s.producer with
      | .loaded _ tail _ => s.queue.Inside tail
      | .written _ tail head => tail - head < s.queue.capacity - 1 ∧ s.queue.tail + 1 ≠ 0
      | _ => True
  | _ => True

/-! ## The counters -/

/-- A counter that does not begin again counts on. -/
theorem toNat_succ_of_ne_zero {i : UInt64} (h : i + 1 ≠ 0) : (i + 1).toNat = i.toNat + 1 := by
  have hlt := i.toNat_lt
  have hne : (i + 1).toNat ≠ 0 := fun h' => h (UInt64.toNat_inj.mp h')
  rw [UInt64.toNat_add, UInt64.toNat_one] at hne ⊢
  omega

theorem toNat_succ_of_lt {i j : UInt64} (h : i.toNat < j.toNat) : (i + 1).toNat = i.toNat + 1 := by
  have hlt := j.toNat_lt
  rw [UInt64.toNat_add, UInt64.toNat_one]
  omega

/-! ## The slots -/

theorem toNat_capacityMaskOf (capacity : UInt64) :
    (capacityMaskOf capacity).toNat = 2 ^ (capacity - 1).toNat.size - 1 := by
  have hcovers := (((((Covers.one (capacity - 1).toNat).spread).spread).spread).spread).spread.spread
  rw [← hcovers.eq_two_pow_size_sub_one (capacity - 1).toNat_lt]
  simp [capacityMaskOf]

namespace Queue

/-- The mask has the bits below a power of two, which is the capacity (none at all if it is `2 ^ 64`),
and no more memory is allocated than that. -/
structure Shaped (q : Queue α) (k : ℕ) : Prop where
  le : k ≤ 64
  mask : q.capacityMask.toNat = 2 ^ k - 1
  capacity : q.capacity.toNat = 2 ^ k % 2 ^ 64
  length : q.queue.length ≤ q.capacity.toNat

theorem shaped_make (size : ℕ) (capacity : UInt64) :
    (make α size capacity).Shaped (capacity - 1).toNat.size where
  le := Nat.size_le.mpr (capacity - 1).toNat_lt
  mask := toNat_capacityMaskOf capacity
  capacity := by
    have hpos := Nat.two_pow_pos (capacity - 1).toNat.size
    simp only [make, UInt64.toNat_add, toNat_capacityMaskOf, UInt64.toNat_one]
    rw [Nat.sub_add_cancel hpos]
  length := by
    simp only [make, List.length_replicate]
    exact Nat.div_le_of_le_mul (Nat.mod_le _ _)

variable {q : Queue α} {k : ℕ} {i j : UInt64} {x : α}

theorem Shaped.slot_eq (h : q.Shaped k) : q.slot i = i.toNat % 2 ^ k := by
  rw [slot, UInt64.toNat_and, h.mask, Nat.and_two_pow_sub_one_eq_mod]

/-- Memory that is written to is there. -/
theorem Shaped.capacity_pos (h : q.Shaped k) (hi : q.Inside i) :
    k < 64 ∧ q.capacity.toNat = 2 ^ k := by
  have hpos : 0 < q.capacity.toNat := (Nat.zero_lt_of_lt hi).trans_le h.length
  have hk : k < 64 := by
    by_contra hle
    have heq : k = 64 := by
      have := h.le
      omega
    rw [h.capacity, heq, Nat.mod_self] at hpos
    exact absurd hpos (lt_irrefl 0)
  refine ⟨hk, ?_⟩
  rw [h.capacity, Nat.mod_eq_of_lt (Nat.pow_lt_pow_right (by decide) hk)]

/-- Counters that are less than the capacity apart have different slots. -/
theorem Shaped.slot_ne (h : q.Shaped k) (hlt : i.toNat < j.toNat) (hnear : j.toNat < i.toNat + 2 ^ k) :
    q.slot i ≠ q.slot j := by
  rw [h.slot_eq, h.slot_eq]
  intro heq
  have hdvd : 2 ^ k ∣ j.toNat - i.toNat :=
    Nat.dvd_of_mod_eq_zero (Nat.sub_mod_eq_zero_of_mod_eq heq.symm)
  have := Nat.le_of_dvd (by omega) hdvd
  omega

theorem read_write_self (hi : q.Inside i) : (q.write i x).read i = some x := by
  have hslot : (q.write i x).slot i = q.slot i := rfl
  rw [read, hslot]
  simp [write, List.getElem?_set_self hi]

theorem read_write_of_ne (hne : q.slot j ≠ q.slot i) : (q.write i x).read j = q.read j := by
  have hslot : (q.write i x).slot j = q.slot j := rfl
  rw [read, hslot, read]
  simp only [write, List.getElem?_set_ne (Ne.symm hne)]

/-! ## What waits -/

/-- The tail moves over one more element. -/
theorem waiting_tail (hle : q.head.toNat ≤ q.tail.toNat) (hwrap : q.tail + 1 ≠ 0) :
    ({ q with tail := q.tail + 1 } : Queue α).waiting = q.waiting ++ [q.read q.tail] := by
  have hnext := toNat_succ_of_ne_zero hwrap
  have hread : ∀ i : ℕ, ({ q with tail := q.tail + 1 } : Queue α).read (UInt64.ofNat i) =
      q.read (UInt64.ofNat i) := fun _ => rfl
  simp only [waiting, hnext, hread]
  rw [Nat.sub_add_comm hle, List.range'_concat, List.map_append, Nat.one_mul,
    Nat.add_sub_cancel' hle, List.map_singleton, UInt64.ofNat_toNat]

/-- The head moves over the first element. -/
theorem waiting_head (hlt : q.head.toNat < q.tail.toNat) :
    q.waiting = q.read q.head :: ({ q with head := q.head + 1 } : Queue α).waiting := by
  have hnext := toNat_succ_of_lt hlt
  have hread : ∀ i : ℕ, ({ q with head := q.head + 1 } : Queue α).read (UInt64.ofNat i) =
      q.read (UInt64.ofNat i) := fun _ => rfl
  obtain ⟨n, hn⟩ := Nat.exists_eq_add_of_lt hlt
  simp only [waiting, hnext, hread]
  rw [show q.tail.toNat - q.head.toNat = n + 1 by omega,
    show q.tail.toNat - (q.head.toNat + 1) = n by omega, List.range'_succ, List.map_cons,
    UInt64.ofNat_toNat]

/-- What is written behind the tail overwrites nothing that waits. -/
theorem waiting_write (h : q.Shaped k) (hroom : q.tail.toNat < q.head.toNat + 2 ^ k) :
    (q.write q.tail x).waiting = q.waiting := by
  simp only [waiting, write]
  apply List.map_congr_left
  intro n hn
  obtain ⟨hge, hlt⟩ := List.mem_range'_1.mp hn
  have hn : (UInt64.ofNat n).toNat = n := by
    rw [UInt64.toNat_ofNat']
    have := q.tail.toNat_lt
    exact Nat.mod_eq_of_lt (by omega)
  exact read_write_of_ne (h.slot_ne (by omega) (by omega))

end Queue

/-! ## The invariant -/

/-- What `push` has loaded and written. -/
def Producer.Holds (q : Queue α) : Producer α → Prop
  | .idle => True
  | .tailLoaded _ tail => tail = q.tail
  | .loaded _ tail head => tail = q.tail ∧ head.toNat ≤ q.head.toNat
  | .written x tail head => tail = q.tail ∧ head.toNat ≤ q.head.toNat ∧ q.Inside tail ∧
      q.read tail = some x

/-- What `pop` has loaded and copied. -/
def Consumer.Holds (q : Queue α) : Consumer α → Prop
  | .idle => True
  | .headLoaded head => head = q.head
  | .loaded head tail => head = q.head ∧ tail.toNat ≤ q.tail.toNat
  | .copied head value => head = q.head ∧ q.head.toNat < q.tail.toNat ∧ value = q.read q.head

/-- The counters are less than the capacity apart, their slots are there, and the threads have loaded
what is or was so. -/
structure Inv (k : ℕ) (s : State α) : Prop extends Lossless s where
  shaped : s.queue.Shaped k
  le : s.queue.head.toNat ≤ s.queue.tail.toNat
  room : s.queue.tail.toNat < s.queue.head.toNat + 2 ^ k
  slots : ∀ i : UInt64, s.queue.head.toNat ≤ i.toNat → i.toNat < s.queue.tail.toNat →
    s.queue.Inside i
  producer : s.producer.Holds s.queue
  consumer : s.consumer.Holds s.queue

variable {k : ℕ} {s : State α} {move : Move α}

theorem inv_init (size : ℕ) (capacity : UInt64) :
    Inv (capacity - 1).toNat.size (State.init α size capacity) where
  inside := rfl
  fifo := rfl
  shaped := Queue.shaped_make size capacity
  le := le_rfl
  room := by
    have hpos := Nat.two_pow_pos (capacity - 1).toNat.size
    exact Nat.lt_of_lt_of_le hpos (Nat.le_add_left _ _)
  slots i _ hlt := absurd hlt (Nat.not_lt_zero _)
  producer := trivial
  consumer := trivial

/-- A push that says so without moving the tail over its element loses it. -/
theorem not_lossless_of_pushed {q : Queue α} {x : α} {p : Producer α} (h : Lossless s)
    (hlength : q.waiting.length ≤ s.queue.waiting.length) :
    ¬ Lossless { s with queue := q, producer := p, pushed := s.pushed ++ [x] } := by
  intro hlossless
  have hbefore := congrArg List.length h.fifo
  have hafter := congrArg List.length hlossless.fifo
  simp only [List.length_map, List.length_append, List.length_singleton] at hbefore hafter
  omega

theorem stores_of_lossless (h : Inv k s) (hnext : Lossless (s.step move)) : Stores s move := by
  cases move with
  | produce =>
      cases hp : s.producer with
      | loaded x tail head =>
          simp only [Stores, hp]
          by_contra hinside
          have hoverrun := hnext.inside
          simp [State.step, State.produce, hp, hinside] at hoverrun
      | written x tail head =>
          simp only [Stores, hp]
          by_contra hnot
          simp only [State.step, State.produce, hp] at hnext
          refine not_lossless_of_pushed h.toLossless ?_ hnext
          by_cases hroom : tail - head < s.queue.capacity - 1
          · -- the tail begins again, and nothing is found from there on
            have hwrap : s.queue.tail + 1 = 0 := by
              by_contra hne
              exact hnot ⟨hroom, hne⟩
            simp [hroom, Queue.waiting, hwrap]
          · simp [hroom]
      | _ => simp [Stores, hp]
  | _ => trivial

/-- The element is written to a slot that is free. -/
theorem Inv.produce_loaded (h : Inv k s) {x : α} {tail head : UInt64}
    (hp : s.producer = .loaded x tail head) (hstores : s.queue.Inside tail) : Inv k s.produce := by
  have hproducer := h.producer
  rw [hp] at hproducer
  obtain ⟨rfl, hhead⟩ := hproducer
  simp only [State.produce, hp, hstores, if_true]
  have hinside : ∀ i, (s.queue.write s.queue.tail x).Inside i ↔ s.queue.Inside i := by
    intro i
    simp [Queue.Inside, Queue.write, Queue.slot]
  exact
    { inside := h.inside
      fifo := by
        rw [Queue.waiting_write h.shaped h.room]
        exact h.fifo
      shaped :=
        { le := h.shaped.le
          mask := h.shaped.mask
          capacity := h.shaped.capacity
          length := by
            simp only [Queue.write, List.length_set]
            exact h.shaped.length }
      le := h.le
      room := h.room
      slots := fun i hge hlt => (hinside i).mpr (h.slots i hge hlt)
      producer := ⟨rfl, hhead, (hinside _).mpr hstores, Queue.read_write_self hstores⟩
      consumer := by
        have hconsumer := h.consumer
        cases hc : s.consumer with
        | copied head' value =>
            rw [hc] at hconsumer
            obtain ⟨rfl, hlt, rfl⟩ := hconsumer
            refine ⟨rfl, hlt, (Queue.read_write_of_ne ?_).symm⟩
            exact h.shaped.slot_ne hlt h.room
        | _ =>
            rw [hc] at hconsumer
            exact hconsumer }

/-- The tail moves over the element that is written. -/
theorem Inv.produce_written (h : Inv k s) {x : α} {tail head : UInt64}
    (hp : s.producer = .written x tail head) (hroom : tail - head < s.queue.capacity - 1)
    (hwrap : s.queue.tail + 1 ≠ 0) : Inv k s.produce := by
  have hproducer := h.producer
  rw [hp] at hproducer
  obtain ⟨rfl, hhead, hinside, hread⟩ := hproducer
  simp only [State.produce, hp, hroom, if_true]
  obtain ⟨-, hcapacity⟩ := h.shaped.capacity_pos hinside
  have hpos := Nat.two_pow_pos k
  have hle := h.le
  have hnext := toNat_succ_of_ne_zero hwrap
  -- the head that was loaded is not ahead of the head
  have hfree : s.queue.tail.toNat - head.toNat < 2 ^ k - 1 := by
    rw [UInt64.lt_iff_toNat_lt, UInt64.toNat_sub_of_le _ _
      (UInt64.le_iff_toNat_le.mpr (hhead.trans hle)), UInt64.toNat_sub_of_le _ _
      (UInt64.le_iff_toNat_le.mpr (by rw [hcapacity]; exact hpos)), hcapacity,
      UInt64.toNat_one] at hroom
    exact hroom
  exact
    { inside := h.inside
      fifo := by
        rw [List.map_append, h.fifo, Queue.waiting_tail h.le hwrap, hread, List.append_assoc]
        rfl
      shaped := ⟨h.shaped.le, h.shaped.mask, h.shaped.capacity, h.shaped.length⟩
      le := by
        simp only [hnext]
        omega
      room := by
        simp only [hnext]
        omega
      slots := fun i hge hlt => by
        simp only [hnext] at hge hlt
        by_cases hlast : i.toNat = s.queue.tail.toNat
        · rw [UInt64.toNat_inj.mp hlast]
          exact hinside
        · exact h.slots i hge (by omega)
      producer := trivial
      consumer := by
        have hconsumer := h.consumer
        cases hc : s.consumer with
        | loaded head' tail' =>
            rw [hc] at hconsumer
            refine ⟨hconsumer.1, ?_⟩
            simp only [hnext]
            exact hconsumer.2.trans (Nat.le_succ _)
        | copied head' value =>
            rw [hc] at hconsumer
            obtain ⟨hhead', hlt, hvalue⟩ := hconsumer
            refine ⟨hhead', ?_, hvalue⟩
            simp only [hnext]
            exact hlt.trans (Nat.lt_succ_self _)
        | _ =>
            rw [hc] at hconsumer
            exact hconsumer }

/-- A step of `push` that finds room keeps the invariant. -/
theorem Inv.produce (h : Inv k s) (hstores : Stores s .produce) : Inv k s.produce := by
  cases hp : s.producer with
  | idle =>
      simp only [State.produce, hp]
      exact h
  | tailLoaded x tail =>
      have hproducer := h.producer
      rw [hp] at hproducer
      simp only [State.produce, hp]
      exact { h with producer := ⟨hproducer, le_rfl⟩ }
  | loaded x tail head =>
      simp only [Stores, hp] at hstores
      exact h.produce_loaded hp hstores
  | written x tail head =>
      simp only [Stores, hp] at hstores
      exact h.produce_written hp hstores.1 hstores.2

/-- A step of `pop` keeps the invariant. -/
theorem Inv.consume (h : Inv k s) : Inv k s.consume := by
  have hconsumer := h.consumer
  unfold State.consume
  cases hc : s.consumer with
  | idle => exact h
  | headLoaded head =>
      rw [hc] at hconsumer
      exact { h with consumer := ⟨hconsumer, le_rfl⟩ }
  | loaded head tail =>
      rw [hc] at hconsumer
      obtain ⟨rfl, htail⟩ := hconsumer
      dsimp only
      by_cases hempty : tail ≤ s.queue.head
      · rw [if_pos hempty]
        exact { h with consumer := trivial }
      · rw [UInt64.le_iff_toNat_le, not_le] at hempty
        have hlt : s.queue.head.toNat < s.queue.tail.toNat := hempty.trans_le htail
        rw [if_neg (by rw [UInt64.le_iff_toNat_le]; omega), if_pos (h.slots _ le_rfl hlt)]
        exact { h with consumer := ⟨rfl, hlt, rfl⟩ }
  | copied head value =>
      rw [hc] at hconsumer
      obtain ⟨rfl, hlt, rfl⟩ := hconsumer
      dsimp only
      have hroom := h.room
      have hnext := toNat_succ_of_lt hlt
      exact
        { inside := h.inside
          fifo := by
            rw [h.fifo, Queue.waiting_head hlt, List.append_assoc]
            rfl
          shaped := ⟨h.shaped.le, h.shaped.mask, h.shaped.capacity, h.shaped.length⟩
          le := by
            simp only [hnext]
            exact hlt
          room := by
            simp only [hnext]
            omega
          slots := fun i hge hlt => by
            simp only [hnext] at hge
            exact h.slots i (by omega) hlt
          producer := by
            have hproducer := h.producer
            cases hp : s.producer with
            | loaded x tail head' =>
                rw [hp] at hproducer
                refine ⟨hproducer.1, ?_⟩
                simp only [hnext]
                exact hproducer.2.trans (Nat.le_succ _)
            | written x tail head' =>
                rw [hp] at hproducer
                obtain ⟨htail, hhead', hinside, hread⟩ := hproducer
                refine ⟨htail, ?_, hinside, hread⟩
                simp only [hnext]
                exact hhead'.trans (Nat.le_succ _)
            | _ =>
                rw [hp] at hproducer
                exact hproducer
          consumer := trivial }

theorem Inv.step (h : Inv k s) (hstores : Stores s move) : Inv k (s.step move) := by
  cases move with
  | produce => exact h.produce hstores
  | consume => exact h.consume
  | push x =>
      unfold State.step
      cases hp : s.producer with
      | idle => exact { h with producer := rfl }
      | _ => exact h
  | pop =>
      unfold State.step
      cases hc : s.consumer with
      | idle => exact { h with consumer := rfl }
      | _ => exact h

/-- For every requested capacity and every interleaving of pushes and pops, what was pushed was
popped or waits to be, in its order, just where every push finds room for its element. -/
theorem lossless_iff (size : ℕ) (capacity : UInt64) (moves : List (Move α)) :
    (∀ done, done <+: moves → Lossless (done.foldl State.step (.init α size capacity))) ↔
      Along State.step Stores (.init α size capacity) moves :=
  (along_iff_forall_prefix_of_inv (I := Lossless) (J := Inv (capacity - 1).toNat.size)
    (fun _ h => h.toLossless) (fun _ _ => stores_of_lossless) (fun _ _ => Inv.step)
    (inv_init size capacity)).symm

/-- A queue for two after two pushes. -/
def exampleFull : State ℕ :=
  ([.push 1, .produce, .produce, .produce, .push 2, .produce, .produce, .produce] :
    List (Move ℕ)).foldl State.step (.init ℕ 8 2)

/-- The second push says that it has pushed, and its element is lost. -/
theorem not_lossless_of_full :
    exampleFull.pushed = [1, 2] ∧ exampleFull.popped = [] ∧
      exampleFull.queue.waiting = [some 1] ∧ ¬ Lossless exampleFull := by
  refine ⟨by decide +kernel, by decide +kernel, by decide +kernel, ?_⟩
  intro hlossless
  exact absurd hlossless.fifo (by decide +kernel)

end Kungfu.Cache.RingQueue
