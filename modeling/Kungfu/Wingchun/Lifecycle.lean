import Kungfu.Wingchun.UpdateBook
import Kungfu.Logic.Tally
import Mathlib.Algebra.BigOperators.Ring.Finset
import Mathlib.Tactic.Ring

/-!
# The messages of an order

An order starts with its input.  Orders and trades follow, one of the orders is final, and
its volume left is what the trades have not taken.  Messages of many orders are mixed in
any way.
-/

namespace Kungfu.Longfist.TradingData

def isOrderInput : TradingData → Bool
  | orderInput _ => true
  | _ => false

/-- The frozen price that an order carries. -/
def orderFrozenPrice? : TradingData → Option ℚ
  | order o => some o.frozenPrice
  | _ => none

/-- A final order. -/
def finalOrder? : TradingData → Option (Order Details)
  | order o => if isFinalStatus o.status then some o else none
  | _ => none

def trade? : TradingData → Option (Trade Details)
  | trade t => some t
  | _ => none

def tradedVolume (ms : List TradingData) : ℤ := ((ms.filterMap trade?).map fun t => t.volume.toInt).sum

/-- There is an order before the first trade. -/
def orderFirst : List TradingData → Bool
  | [] => true
  | orderInput _ :: ms => orderFirst ms
  | order _ :: _ => true
  | trade _ :: _ => false

/-- What a message adds to the volume that its order still has. -/
def outstanding : TradingData → ℤ
  | orderInput i => i.volume.toInt
  | order o => if isFinalStatus o.status then -o.volumeLeft.toInt else 0
  | trade t => -t.volume.toInt

/-- The messages of an order, in their order. -/
abbrev messagesOf (id : UInt64) (ms : List TradingData) : List TradingData :=
  Tally.entries orderId id ms

end Kungfu.Longfist.TradingData

namespace Kungfu.Wingchun

open Longfist TradingData

/-- The messages of an order after its input. -/
structure Lifecycle (input : OrderInput Details) (rest : List TradingData) : Prop where
  inputOnce : ∀ m ∈ rest, m.isOrderInput = false
  orderFirst : orderFirst rest = true
  contract : ∀ m ∈ rest, m.exchangeId = input.exchangeId ∧ m.instrumentId = input.instrumentId ∧
    m.side = input.side
  frozenPrice : ∀ m ∈ rest, ∀ price ∈ m.orderFrozenPrice?, price = input.frozenPrice
  /-- There is one final order, and its volume left is what the trades have not taken. -/
  final : (rest.filterMap finalOrder?).map (fun o => o.volumeLeft.toInt) =
    [input.volume.toInt - tradedVolume rest]

/-- The messages of one order, all of them. -/
def IsLifecycle : List TradingData → Prop
  | .orderInput input :: rest => Lifecycle input rest
  | _ => False

/-- Messages of any number of orders, mixed in any way. -/
def Complete (ms : List TradingData) : Prop := ∀ m ∈ ms, IsLifecycle (messagesOf m.orderId ms)

/-- As far as volumes go: the messages are about one contract, and the volume left of the one final
order is what the trades have not taken, in whatever order they come. -/
structure Balances (input : OrderInput Details) (rest : List TradingData) : Prop where
  inputOnce : ∀ m ∈ rest, m.isOrderInput = false
  contract : ∀ m ∈ rest, m.exchangeId = input.exchangeId ∧ m.instrumentId = input.instrumentId ∧
    m.side = input.side
  final : (rest.filterMap finalOrder?).map (fun o => o.volumeLeft.toInt) =
    [input.volume.toInt - tradedVolume rest]

def IsBalanced : List TradingData → Prop
  | .orderInput input :: rest => Balances input rest
  | _ => False

/-- Messages of any number of orders whose volumes balance. -/
def Balanced (ms : List TradingData) : Prop := ∀ m ∈ ms, IsBalanced (messagesOf m.orderId ms)

instance (input : OrderInput Details) (rest : List TradingData) : Decidable (Lifecycle input rest) :=
  decidable_of_iff
    ((∀ m ∈ rest, m.isOrderInput = false) ∧ orderFirst rest = true ∧
      (∀ m ∈ rest, m.exchangeId = input.exchangeId ∧ m.instrumentId = input.instrumentId ∧
        m.side = input.side) ∧
      (∀ m ∈ rest, ∀ price ∈ m.orderFrozenPrice?, price = input.frozenPrice) ∧
      (rest.filterMap finalOrder?).map (fun o => o.volumeLeft.toInt) =
        [input.volume.toInt - tradedVolume rest])
    ⟨fun ⟨h₁, h₂, h₃, h₄, h₅⟩ => ⟨h₁, h₂, h₃, h₄, h₅⟩, fun ⟨h₁, h₂, h₃, h₄, h₅⟩ => ⟨h₁, h₂, h₃, h₄, h₅⟩⟩

instance : DecidablePred IsLifecycle
  | [] => isFalse id
  | .orderInput input :: rest => inferInstanceAs (Decidable (Lifecycle input rest))
  | .order _ :: _ => isFalse id
  | .trade _ :: _ => isFalse id

instance (ms : List TradingData) : Decidable (Complete ms) :=
  List.decidableBAll _ ms

instance (input : OrderInput Details) (rest : List TradingData) : Decidable (Balances input rest) :=
  decidable_of_iff
    ((∀ m ∈ rest, m.isOrderInput = false) ∧
      (∀ m ∈ rest, m.exchangeId = input.exchangeId ∧ m.instrumentId = input.instrumentId ∧
        m.side = input.side) ∧
      (rest.filterMap finalOrder?).map (fun o => o.volumeLeft.toInt) =
        [input.volume.toInt - tradedVolume rest])
    ⟨fun ⟨h₁, h₂, h₃⟩ => ⟨h₁, h₂, h₃⟩, fun ⟨h₁, h₂, h₃⟩ => ⟨h₁, h₂, h₃⟩⟩

instance : DecidablePred IsBalanced
  | [] => isFalse id
  | .orderInput input :: rest => inferInstanceAs (Decidable (Balances input rest))
  | .order _ :: _ => isFalse id
  | .trade _ :: _ => isFalse id

instance (ms : List TradingData) : Decidable (Balanced ms) :=
  List.decidableBAll _ ms

/-- The input of an order. -/
def inputOf (ms : List TradingData) (id : UInt64) : Option (OrderInput Details) :=
  match messagesOf id ms with
  | .orderInput i :: _ => some i
  | _ => none

/-- The price that an order freezes money at. -/
def frozenPriceOf (ms : List TradingData) (id : UInt64) : ℚ :=
  match inputOf ms id with
  | some input => input.frozenPrice
  | none => 0

variable {ms : List TradingData} {input : OrderInput Details} {rest : List TradingData}

/-- What the messages after the input take from the volume. -/
theorem sum_outstanding (hinput : ∀ m ∈ rest, m.isOrderInput = false) :
    (rest.map outstanding).sum =
      -tradedVolume rest - ((rest.filterMap finalOrder?).map fun o => o.volumeLeft.toInt).sum := by
  induction rest with
  | nil => simp [tradedVolume]
  | cons m rest ih =>
      have hsum := ih fun m' hm' => hinput m' (List.mem_cons_of_mem m hm')
      rw [List.map_cons, List.sum_cons, hsum]
      cases m with
      | orderInput i => cases hinput _ List.mem_cons_self
      | order o =>
          by_cases hfinal : isFinalStatus o.status <;>
            simp only [tradedVolume, outstanding, finalOrder?, trade?, List.filterMap_cons, hfinal,
              if_true, Bool.false_eq_true, if_false, List.map_cons, List.sum_cons] <;> ring
      | trade t =>
          simp only [tradedVolume, outstanding, trade?, List.filterMap_cons, finalOrder?,
            List.map_cons, List.sum_cons]
          ring

/-- In the end nothing is left of an order's volume. -/
theorem Balances.sum_outstanding_eq (h : Balances input rest) :
    ((.orderInput input :: rest).map outstanding).sum = 0 := by
  rw [List.map_cons, List.sum_cons, sum_outstanding h.inputOnce, h.final]
  simp only [outstanding, List.sum_cons, List.sum_nil]
  ring

/-- Every trade has an order before it. -/
theorem exists_order_of_orderFirst {before after : List TradingData} {t : Trade Details}
    (h : orderFirst (before ++ .trade t :: after) = true) : ∃ o, .order o ∈ before := by
  induction before with
  | nil => cases h
  | cons m before ih =>
      cases m with
      | orderInput i =>
          obtain ⟨o, ho⟩ := ih h
          exact ⟨o, List.mem_cons_of_mem _ ho⟩
      | order o => exact ⟨o, List.mem_cons_self⟩
      | trade t' => cases h

/-- What is proportional to the outstanding volume of an order adds up in proportion to it. -/
theorem total_eq_mul {R : Type} [Ring R] {f : TradingData → R} {c : R} {id : UInt64}
    (hf : ∀ m ∈ ms, m.orderId = id → f m = c * m.outstanding) :
    Tally.total orderId f id ms = c * (Tally.total orderId outstanding id ms : ℤ) := by
  have hmap : (messagesOf id ms).map f = (messagesOf id ms).map fun m => c * (m.outstanding : R) := by
    apply List.map_congr_left
    intro m hm
    obtain ⟨hmem, hid⟩ := (Tally.mem_entries orderId).mp hm
    exact hf m hmem hid
  rw [Tally.total, hmap, List.sum_map_mul_left, Tally.total, Int.cast_list_sum, List.map_map]
  rfl

/-! ## What the messages of an order have in common -/

theorem Lifecycle.balances (h : Lifecycle input rest) : Balances input rest :=
  ⟨h.inputOnce, h.contract, h.final⟩

theorem Complete.balanced (h : Complete ms) : Balanced ms := by
  intro m hm
  have hlife := h m hm
  cases hmessages : messagesOf m.orderId ms with
  | nil =>
      rw [hmessages] at hlife
      exact hlife
  | cons m' rest =>
      rw [hmessages] at hlife
      cases m' with
      | orderInput input => exact Lifecycle.balances hlife
      | _ => exact absurd hlife id

namespace Balanced

variable {m : TradingData}

theorem exists_balances (h : Balanced ms) (hm : m ∈ ms) :
    ∃ input rest, messagesOf m.orderId ms = .orderInput input :: rest ∧ Balances input rest := by
  have hlife := h m hm
  cases hmessages : messagesOf m.orderId ms with
  | nil =>
      rw [hmessages] at hlife
      exact absurd hlife id
  | cons m' rest =>
      rw [hmessages] at hlife
      cases m' with
      | orderInput input => exact ⟨input, rest, rfl, hlife⟩
      | _ => exact absurd hlife id

/-- Every message has an input, which it agrees with. -/
theorem exists_input (h : Balanced ms) (hm : m ∈ ms) :
    ∃ input, inputOf ms m.orderId = some input ∧ .orderInput input ∈ ms ∧
      input.orderId = m.orderId ∧ m.exchangeId = input.exchangeId ∧
      m.instrumentId = input.instrumentId ∧ m.side = input.side := by
  obtain ⟨input, rest, hrest, hlife⟩ := h.exists_balances hm
  have hinput := (Tally.mem_entries orderId).mp (hrest ▸ List.mem_cons_self)
  refine ⟨input, by simp only [inputOf, hrest], hinput.1, hinput.2, ?_⟩
  have hmem : m ∈ messagesOf m.orderId ms := (Tally.mem_entries orderId).mpr ⟨hm, rfl⟩
  rw [hrest] at hmem
  rcases List.mem_cons.mp hmem with rfl | hmem
  · exact ⟨rfl, rfl, rfl⟩
  · exact hlife.contract m hmem

/-- The messages of an order are about one contract. -/
theorem agree (h : Balanced ms) (hm : m ∈ ms) {m' : TradingData} (hm' : m' ∈ ms)
    (hid : m'.orderId = m.orderId) :
    m'.exchangeId = m.exchangeId ∧ m'.instrumentId = m.instrumentId ∧ m'.side = m.side := by
  obtain ⟨input, hinput, -, -, hexchange, hinstrument, hside⟩ := h.exists_input hm
  obtain ⟨input', hinput', -, -, hexchange', hinstrument', hside'⟩ := h.exists_input hm'
  rw [hid, hinput] at hinput'
  cases hinput'
  exact ⟨hexchange'.trans hexchange.symm, hinstrument'.trans hinstrument.symm,
    hside'.trans hside.symm⟩

/-- A message is its order's input, or one that comes after it. -/
theorem mem_cases (h : Balanced ms) (hm : m ∈ ms) :
    ∃ input rest, messagesOf m.orderId ms = .orderInput input :: rest ∧ Balances input rest ∧
      (m = .orderInput input ∨ m ∈ rest) := by
  obtain ⟨input, rest, hrest, hlife⟩ := h.exists_balances hm
  have hmem : m ∈ messagesOf m.orderId ms := (Tally.mem_entries orderId).mpr ⟨hm, rfl⟩
  rw [hrest] at hmem
  exact ⟨input, rest, hrest, hlife, List.mem_cons.mp hmem⟩

theorem total_outstanding (h : Balanced ms) (hm : m ∈ ms) :
    Tally.total orderId outstanding m.orderId ms = 0 := by
  obtain ⟨input, rest, hrest, hlife⟩ := h.exists_balances hm
  change ((messagesOf m.orderId ms).map outstanding).sum = 0
  rw [hrest]
  exact hlife.sum_outstanding_eq

/-- What is proportional to the outstanding volume of each order adds up to nothing. -/
theorem sum_eq_zero {R : Type} [Ring R] (h : Balanced ms) {f : TradingData → R}
    (hf : ∀ m ∈ ms, ∃ c : R, ∀ m' ∈ ms, m'.orderId = m.orderId → f m' = c * m'.outstanding) :
    (ms.map f).sum = 0 := by
  apply Tally.sum_eq_zero orderId
  intro m hm
  obtain ⟨c, hc⟩ := hf m hm
  rw [total_eq_mul hc, h.total_outstanding hm, Int.cast_zero, mul_zero]

end Balanced

namespace Complete

variable {m : TradingData}

/-- A message is its order's input, or one that comes after it. -/
theorem mem_cases (h : Complete ms) (hm : m ∈ ms) :
    ∃ input rest, messagesOf m.orderId ms = .orderInput input :: rest ∧ Lifecycle input rest ∧
      (m = .orderInput input ∨ m ∈ rest) := by
  obtain ⟨input, rest, hrest, -, hcases⟩ := h.balanced.mem_cases hm
  have hlife := h m hm
  rw [hrest] at hlife
  exact ⟨input, rest, hrest, hlife, hcases⟩

theorem frozenPrice_orderInput (h : Complete ms) {i : OrderInput Details}
    (hi : .orderInput i ∈ ms) : i.frozenPrice = frozenPriceOf ms i.orderId := by
  obtain ⟨input, rest, hrest, hlife, heq | hmem⟩ := h.mem_cases hi
  · cases heq
    change messagesOf i.orderId ms = _ at hrest
    simp only [frozenPriceOf, inputOf, hrest]
  · cases hlife.inputOnce _ hmem

theorem frozenPrice_order (h : Complete ms) {o : Order Details} (ho : .order o ∈ ms) :
    o.frozenPrice = frozenPriceOf ms o.orderId := by
  obtain ⟨input, rest, hrest, hlife, heq | hmem⟩ := h.mem_cases ho
  · cases heq
  · change messagesOf o.orderId ms = _ at hrest
    rw [hlife.frozenPrice _ hmem o.frozenPrice rfl]
    simp only [frozenPriceOf, inputOf, hrest]

/-- There is an order before every trade. -/
theorem order_before (h : Complete ms) {before after : List TradingData} {t : Trade Details}
    (hms : ms = before ++ .trade t :: after) : ∃ o, .order o ∈ before ∧ o.orderId = t.orderId := by
  obtain ⟨input, rest, hrest, hlife, -⟩ := h.mem_cases (m := .trade t) (by rw [hms]; simp)
  have hsplit := Tally.entries_append_cons orderId before after (.trade t)
  rw [← hms] at hsplit
  change messagesOf t.orderId ms = _ at hrest
  change messagesOf t.orderId ms =
    messagesOf t.orderId before ++ .trade t :: messagesOf t.orderId after at hsplit
  rw [hrest] at hsplit
  have horder : orderFirst (messagesOf t.orderId before ++ .trade t :: messagesOf t.orderId after) =
      true := by
    rw [← hsplit]
    exact hlife.orderFirst
  obtain ⟨o, ho⟩ := exists_order_of_orderFirst horder
  obtain ⟨hmem, hid⟩ := (Tally.mem_entries orderId).mp ho
  exact ⟨o, hmem, hid⟩

end Complete

/-! ## The orders that a book knows -/

/-- The prices that a book looks up for orders are the ones the orders freeze cash at. -/
def KnowsPrices (ms : List TradingData) (book : AccountBook) : Prop :=
  ∀ m ∈ ms, ∀ o, book.orders m.orderId = some o → o.frozenPrice = frozenPriceOf ms m.orderId

/-- A book after a part of the messages of a run. -/
structure KnowsOrders (ms done : List TradingData) (book : AccountBook) : Prop where
  prices : KnowsPrices ms book
  known : ∀ o, .order o ∈ done → (book.orders o.orderId).isSome

namespace KnowsOrders

variable {m : TradingData} {done todo : List TradingData} {book book' : AccountBook}

/-- The price that is looked up for a trade. -/
theorem getFrozenPrice_trade (h : KnowsOrders ms done book) (hcomplete : Complete ms)
    {t : Trade Details} (hms : ms = done ++ .trade t :: todo) :
    book.getFrozenPrice t.orderId = frozenPriceOf ms t.orderId := by
  obtain ⟨o, ho, hid⟩ := hcomplete.order_before hms
  have hsome := h.known o ho
  rw [hid] at hsome
  obtain ⟨held, hheld⟩ := Option.isSome_iff_exists.mp hsome
  have hprice := h.prices (.trade t) (by rw [hms]; simp) held hheld
  simp only [Book.getFrozenPrice, hheld]
  exact hprice

/-- The price that is looked up for an order, which may have been put in just before. -/
theorem getFrozenPrice_order (h : KnowsOrders ms done book) (hcomplete : Complete ms)
    {o : Order Details} (hmem : .order o ∈ ms) :
    (book.emplaceOrder o).getFrozenPrice o.orderId = frozenPriceOf ms o.orderId := by
  cases hheld : book.orders o.orderId with
  | some held =>
      simp only [Book.emplaceOrder, hheld, Option.isSome_some, if_true, Book.getFrozenPrice]
      exact h.prices _ hmem held hheld
  | none =>
      simp only [Book.emplaceOrder, hheld, Option.isSome_none, Bool.false_eq_true, if_false,
        Book.getFrozenPrice, Function.update_self]
      exact hcomplete.frozenPrice_order hmem

theorem getFrozenPrice_emplace (h : KnowsOrders ms done book) (hcomplete : Complete ms)
    (hms : ms = done ++ m :: todo) (hinput : ∀ i, m ≠ .orderInput i) :
    (book.emplace m).getFrozenPrice m.orderId = frozenPriceOf ms m.orderId := by
  cases m with
  | orderInput i => exact absurd rfl (hinput i)
  | order o => exact h.getFrozenPrice_order hcomplete (by rw [hms]; simp)
  | trade t => exact h.getFrozenPrice_trade hcomplete hms

/-- A message of the run leaves the book with orders of the run. -/
theorem step (h : KnowsOrders ms done book) (hcomplete : Complete ms) (hm : m ∈ ms)
    (horders : ∀ orderId, book'.orders orderId = book.ordersAfter m orderId) :
    KnowsOrders ms (done ++ [m]) book' := by
  constructor
  · intro m' hm' o ho
    rw [horders] at ho
    cases m with
    | order o' =>
        by_cases hid : m'.orderId = o'.orderId
        · simp only [Book.ordersAfter, if_pos hid, Option.some.injEq] at ho
          subst ho
          rw [hid]
          exact hcomplete.frozenPrice_order hm
        · simp only [Book.ordersAfter, if_neg hid] at ho
          exact h.prices m' hm' o ho
    | _ => exact h.prices m' hm' o ho
  · intro o ho
    rw [horders]
    rcases List.mem_append.mp ho with ho | ho
    · have hsome := h.known o ho
      cases m with
      | order o' =>
          by_cases hid : o.orderId = o'.orderId
          · simp [Book.ordersAfter, hid]
          · simp only [Book.ordersAfter, if_neg hid, hsome]
      | _ => exact hsome
    · cases List.mem_singleton.mp ho
      simp [Book.ordersAfter]

end KnowsOrders

end Kungfu.Wingchun
