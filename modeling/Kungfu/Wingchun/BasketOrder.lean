import Kungfu.Longfist.Account
import Kungfu.Logic.Outcome
import Kungfu.Logic.Table
import Kungfu.Logic.Tally
import Kungfu.Wingchun.Instrument
import Mathlib.Algebra.Order.BigOperators.Group.List
import Mathlib.Data.BitVec
import Mathlib.Data.Finmap
import Mathlib.Data.List.MinMax

/-!
# Basket orders

A basket order sums up its orders.  In the dynamic mode its volume is what was traded of the orders
that are over and the whole volume of the others, and of the newest order of each instrument and
direction.  The newest order is remembered as the messages come.  Of two orders of an instrument and
direction that are as new as each other it is the one of which a message came last, and the volume
is the same for every order of the messages only if as much is open of both.
-/

namespace Kungfu.Wingchun.Basket

open Longfist

inductive BasketOrderStatus
  | Unknown | Pending | PartialFilledNotActive | PartialFilledActive | Filled
  deriving DecidableEq, Repr

inductive BasketOrderCalculationMode
  | Static | Dynamic
  deriving DecidableEq, Repr

/-- The fields of basket orders that are read. -/
structure BasketOrder where
  orderId : UInt64
  volume : Int64
  volumeLeft : Int64
  status : BasketOrderStatus
  calculationMode : BasketOrderCalculationMode

/-- The fields of orders that only basket orders read. -/
structure ChildDetails where
  offset : Offset
  insertTime : Int64
  deriving DecidableEq, Repr

abbrev Order := Longfist.Order ChildDetails

abbrev OrderMap := AList fun _ : UInt64 => Order

/-- `hash_instrument` of an order. -/
def hashInstrument (order : Order) : Except Fault Int32 := do
  let direction ← getDirection order.instrumentType order.side order.details.offset
  let flag : Int32 := if direction = .Short then -1 else 1
  return (Longfist.hashInstrument order.exchangeId order.instrumentId).toInt32 * flag

/-- What is traded of an order. -/
def tradedVolume (order : Order) : Int64 := order.volume - order.volumeLeft

/-- `get_total_traded_volume`. -/
def getTotalTradedVolume (orders : OrderMap) : Int64 :=
  orders.entries.foldl (fun volume entry => volume + tradedVolume entry.2) 0

/-- `is_all_order_end`. -/
def isAllOrderEnd (orders : OrderMap) : Bool :=
  orders.entries.all fun entry => isFinalStatus entry.2.status

/-- The status of a basket order, of its volume and what is left of it. -/
def basketStatus (isAllOrderEnd : Bool) (volume volumeLeft : Int64) : BasketOrderStatus :=
  if isAllOrderEnd ∧ volumeLeft = 0 then .Filled
  else if isAllOrderEnd then .PartialFilledNotActive
  else if volumeLeft < volume then .PartialFilledActive
  else .Pending

structure BasketOrderState where
  data : BasketOrder
  orders : OrderMap
  lastOrderMap : AList fun _ : Int32 => Order

namespace BasketOrderState

/-- A basket order without orders. -/
def ofBasketOrder (basketOrder : BasketOrder) : BasketOrderState := ⟨basketOrder, ∅, ∅⟩

section Model

variable (s : BasketOrderState)

/-- `update_lastst_order`. -/
def updateLatestOrder (order : Order) : Except Fault BasketOrderState := do
  let orders := s.orders.insert order.orderId order
  let hashedKey ← hashInstrument order
  return match s.lastOrderMap.lookup hashedKey with
    | none => { s with orders := orders, lastOrderMap := s.lastOrderMap.insert hashedKey order }
    | some oldLastOrder =>
        if order.details.insertTime < oldLastOrder.details.insertTime then { s with orders := orders }
        else { s with orders := orders, lastOrderMap := s.lastOrderMap.insert hashedKey order }

/-- An order is remembered as the newest one of its key. -/
def isLastOrder (hashedKey : Int32) (order : Order) : Bool :=
  match s.lastOrderMap.lookup hashedKey with
  | none => false
  | some last => last.orderId = order.orderId

/-- `get_total_volume`. -/
def getTotalVolume : Except Fault Int64 :=
  s.orders.entries.foldlM (fun totalVolume entry => do
    let hashedKey ← hashInstrument entry.2
    return totalVolume +
      if s.isLastOrder hashedKey entry.2 then entry.2.volume
      else if isFinalStatus entry.2.status then tradedVolume entry.2
      else entry.2.volume) 0

/-- The volume that `update` gives a basket order. -/
def nextVolume : Except Fault Int64 :=
  if s.data.calculationMode = .Static then .ok s.data.volume else s.getTotalVolume

/-- `update`. -/
def update (order : Order) : Except Fault BasketOrderState := do
  let s ← s.updateLatestOrder order
  let volume ← s.nextVolume
  let volumeLeft := volume - getTotalTradedVolume s.orders
  return { s with data := { s.data with
    volume := volume
    volumeLeft := volumeLeft
    status := basketStatus (isAllOrderEnd s.orders) volume volumeLeft } }

/-- One message after another. -/
def updateAll (messages : List Order) : Except Fault BasketOrderState :=
  messages.foldlM update s

end Model

end BasketOrderState

/-- The states of the basket orders. -/
abbrev BasketOrderEngine := AList fun _ : UInt64 => BasketOrderState

/-- What the state bank has of basket orders and orders, one of each id, as it is gone through. -/
structure Bank where
  basketOrders : List BasketOrder
  orders : List Order

namespace BasketOrderEngine

/-- `make_basket_order_state`. -/
def makeBasketOrderState (e : BasketOrderEngine) (basketOrder : BasketOrder) : BasketOrderEngine :=
  Table.tryEmplace basketOrder.orderId (.ofBasketOrder basketOrder) e

/-- `try_update_basket_order`. -/
def tryUpdateBasketOrder (e : BasketOrderEngine) (order : Order) : Except Fault BasketOrderEngine :=
  if order.parentId = 0 then .ok e
  else
    match e.lookup order.parentId with
    | none => .ok e
    | some state => do
        let state ← state.update order
        return e.insert order.parentId state

/-- `restore`. -/
def restore (bank : Bank) : Except Fault BasketOrderEngine :=
  bank.orders.foldlM tryUpdateBasketOrder (bank.basketOrders.foldl makeBasketOrderState ∅)

end BasketOrderEngine

/-! ## What the latest messages come to -/

/-- The latest message of an order. -/
def latest (messages : List Order) (orderId : UInt64) : Option Order :=
  (messages.filter (·.orderId = orderId)).getLast?

/-- No order of its instrument and direction is newer. -/
def IsNewest (orders : OrderMap) (order : Order) : Prop :=
  ∀ entry ∈ orders.entries, hashInstrument entry.2 = hashInstrument order →
    entry.2.details.insertTime ≤ order.details.insertTime

instance (orders : OrderMap) (order : Order) : Decidable (IsNewest orders order) :=
  inferInstanceAs (Decidable (∀ entry ∈ orders.entries, _))

/-- What an order that is over adds to the volume of a basket order only while it is the newest one of
its instrument and direction. -/
def openVolume (order : Order) : Int64 :=
  if isFinalStatus order.status then order.volumeLeft else 0

/-- What an order adds in any case. -/
def settledVolume (order : Order) : Int64 :=
  if isFinalStatus order.status then tradedVolume order else order.volume

/-- No message about its instrument and direction is newer. -/
def IsNewestMessage (messages : List Order) (order : Order) : Prop :=
  ∀ order' ∈ messages, hashInstrument order' = hashInstrument order →
    order'.details.insertTime ≤ order.details.insertTime

instance (messages : List Order) (order : Order) : Decidable (IsNewestMessage messages order) :=
  inferInstanceAs (Decidable (∀ order' ∈ messages, _))

/-- As much is open of every order of which there is a newest message, as is of the newest orders of
the instrument and direction. -/
def Level (messages : List Order) (orders : OrderMap) : Prop :=
  ∀ order ∈ messages, IsNewestMessage messages order → ∀ entry ∈ orders.entries,
    hashInstrument entry.2 = hashInstrument order → IsNewest orders entry.2 →
      ∃ entry' ∈ orders.entries, entry'.1 = order.orderId ∧
        hashInstrument entry'.2 = hashInstrument order ∧ openVolume entry'.2 = openVolume entry.2

instance (messages : List Order) (orders : OrderMap) : Decidable (Level messages orders) :=
  inferInstanceAs (Decidable (∀ order ∈ messages, _))

/-- Of the newest orders of an instrument and direction it has the lowest id. -/
def IsLast (orders : OrderMap) (entry : Sigma fun _ : UInt64 => Order) : Prop :=
  IsNewest orders entry.2 ∧ ∀ entry' ∈ orders.entries,
    hashInstrument entry'.2 = hashInstrument entry.2 → IsNewest orders entry'.2 → entry.1 ≤ entry'.1

instance (orders : OrderMap) : DecidablePred (IsLast orders) := fun _ =>
  inferInstanceAs (Decidable (_ ∧ ∀ entry' ∈ orders.entries, _))

/-- What an order adds to the volume of a basket order in the dynamic mode. -/
def countedVolume (orders : OrderMap) (entry : Sigma fun _ : UInt64 => Order) : Int64 :=
  if IsLast orders entry then entry.2.volume
  else if isFinalStatus entry.2.status then tradedVolume entry.2
  else entry.2.volume

/-- The volume of a basket order. -/
def basketVolume (basketOrder : BasketOrder) (orders : OrderMap) : Int64 :=
  if basketOrder.calculationMode = .Static then basketOrder.volume
  else orders.entries.foldl (fun volume entry => volume + countedVolume orders entry) 0

/-- The volume of a basket order, what is left of it, and its status. -/
def standing (basketOrder : BasketOrder) (orders : OrderMap) : Int64 × Int64 × BasketOrderStatus :=
  let volume := basketVolume basketOrder orders
  let volumeLeft := volume - getTotalTradedVolume orders
  (volume, volumeLeft, basketStatus (isAllOrderEnd orders) volume volumeLeft)

/-- The standing that a basket order has. -/
def BasketOrder.standing (basketOrder : BasketOrder) : Int64 × Int64 × BasketOrderStatus :=
  (basketOrder.volume, basketOrder.volumeLeft, basketOrder.status)

/-- Two records of a basket order; only the volume that is given in the static mode stays. -/
def SameBasket (basketOrder basketOrder' : BasketOrder) : Prop :=
  basketOrder.orderId = basketOrder'.orderId ∧
    basketOrder.calculationMode = basketOrder'.calculationMode ∧
    (basketOrder.calculationMode = .Static → basketOrder.volume = basketOrder'.volume)

section Latest

variable {messages messages' : List Order} {order : Order} {orderId : UInt64}
  {orders orders' : OrderMap} {entry entry' : Sigma fun _ : UInt64 => Order}

theorem latest_concat : latest (messages ++ [order]) orderId =
    if order.orderId = orderId then some order else latest messages orderId := by
  unfold latest
  by_cases h : order.orderId = orderId
  · simp [h]
  · simp [h]

theorem mem_of_latest (h : latest messages orderId = some order) :
    order ∈ messages ∧ order.orderId = orderId := by
  obtain ⟨hmem, hid⟩ := List.mem_filter.mp (List.mem_of_getLast? h)
  exact ⟨hmem, of_decide_eq_true hid⟩

theorem exists_latest (h : order ∈ messages) :
    ∃ last, latest messages order.orderId = some last := by
  have hne : messages.filter (·.orderId = order.orderId) ≠ [] :=
    List.ne_nil_of_mem (List.mem_filter.mpr ⟨h, decide_eq_true rfl⟩)
  exact ⟨_, List.getLast?_eq_some_getLast hne⟩

/-- Of messages about different orders every one is the latest. -/
theorem latest_of_nodup (hids : (messages.map (·.orderId)).Nodup) (h : order ∈ messages) :
    latest messages order.orderId = some order := by
  obtain ⟨last, hlast⟩ := exists_latest h
  obtain ⟨hmem, hid⟩ := mem_of_latest hlast
  rw [hlast, List.inj_on_of_nodup_map hids hmem h hid]

theorem perm_entries (h : ∀ orderId, orders.lookup orderId = orders'.lookup orderId) :
    orders.entries.Perm orders'.entries := by
  rw [← AList.toFinmap_eq]
  exact Finmap.ext_lookup h

theorem isNewest_congr (h : orders.entries.Perm orders'.entries) :
    IsNewest orders order ↔ IsNewest orders' order :=
  forall_congr' fun _ => imp_congr_left h.mem_iff

theorem isLast_congr (h : orders.entries.Perm orders'.entries) :
    IsLast orders entry ↔ IsLast orders' entry :=
  and_congr (isNewest_congr h) (forall_congr' fun _ => imp_congr h.mem_iff
    (imp_congr_right fun _ => imp_congr_left (isNewest_congr h)))

theorem countedVolume_congr (h : orders.entries.Perm orders'.entries) :
    countedVolume orders entry = countedVolume orders' entry := by
  simp only [countedVolume, isLast_congr h]

/-- Volumes add up to the same in every order. -/
theorem foldl_add_perm {entries entries' : List (Sigma fun _ : UInt64 => Order)}
    (h : entries.Perm entries') (volumeOf : (Sigma fun _ : UInt64 => Order) → Int64)
    (volume : Int64) :
    entries.foldl (fun volume entry => volume + volumeOf entry) volume =
      entries'.foldl (fun volume entry => volume + volumeOf entry) volume :=
  h.foldl_eq' (fun x _ y _ z => by ac_rfl) volume

/-- There is a newest one of the instrument and direction of every order of a list. -/
theorem exists_newest {α : Type} (orderOf : α → Order) {xs : List α} {x : α} (hx : x ∈ xs) :
    ∃ newest ∈ xs, hashInstrument (orderOf newest) = hashInstrument (orderOf x) ∧
      ∀ y ∈ xs, hashInstrument (orderOf y) = hashInstrument (orderOf newest) →
        (orderOf y).details.insertTime ≤ (orderOf newest).details.insertTime := by
  let kept := xs.filter fun y => hashInstrument (orderOf y) = hashInstrument (orderOf x)
  have hkept : ∀ y, y ∈ kept ↔ y ∈ xs ∧ hashInstrument (orderOf y) = hashInstrument (orderOf x) :=
    fun y => by simp [kept]
  cases hmax : kept.argmax fun y => (orderOf y).details.insertTime.toInt with
  | none =>
      rw [List.argmax_eq_none] at hmax
      have hmem := (hkept x).mpr ⟨hx, rfl⟩
      rw [hmax] at hmem
      cases hmem
  | some newest =>
      obtain ⟨hmem, hhash⟩ := (hkept newest).mp (List.argmax_mem hmax)
      refine ⟨newest, hmem, hhash, fun y hy hsame => ?_⟩
      have hle := List.le_of_mem_argmax ((hkept y).mpr ⟨hy, hsame.trans hhash⟩) hmax
      exact Int64.le_iff_toInt_le.mpr hle

theorem exists_isNewest (hentry : entry ∈ orders.entries) : ∃ newest ∈ orders.entries,
    hashInstrument newest.2 = hashInstrument entry.2 ∧ IsNewest orders newest.2 :=
  exists_newest (fun e => e.2) hentry

theorem exists_isNewestMessage (h : order ∈ messages) : ∃ newest ∈ messages,
    hashInstrument newest = hashInstrument order ∧ IsNewestMessage messages newest :=
  exists_newest (fun o => o) h

/-- There is one last order of the instrument and direction of every order. -/
theorem exists_isLast (hentry : entry ∈ orders.entries) : ∃ last ∈ orders.entries,
    hashInstrument last.2 = hashInstrument entry.2 ∧ IsLast orders last := by
  let kept := orders.entries.filter fun e =>
    hashInstrument e.2 = hashInstrument entry.2 ∧ IsNewest orders e.2
  have hkept : ∀ e, e ∈ kept ↔ e ∈ orders.entries ∧
      hashInstrument e.2 = hashInstrument entry.2 ∧ IsNewest orders e.2 := fun e => by simp [kept]
  cases hmin : kept.argmin fun e => e.1.toNat with
  | none =>
      rw [List.argmin_eq_none] at hmin
      obtain ⟨newest, hnewest, hhash⟩ := exists_isNewest hentry
      have hmem := (hkept newest).mpr ⟨hnewest, hhash⟩
      rw [hmin] at hmem
      cases hmem
  | some last =>
      obtain ⟨hmem, hhash, hnewest⟩ := (hkept last).mp (List.argmin_mem hmin)
      refine ⟨last, hmem, hhash, hnewest, fun e he hsame hnew => ?_⟩
      have hle := List.le_of_mem_argmin ((hkept e).mpr ⟨he, hsame.trans hhash, hnew⟩) hmin
      exact UInt64.le_iff_toNat_le.mpr hle

theorem IsLast.eq (h : IsLast orders entry) (h' : IsLast orders entry')
    (hentry : entry ∈ orders.entries) (hentry' : entry' ∈ orders.entries)
    (hsame : hashInstrument entry.2 = hashInstrument entry'.2) : entry = entry' := by
  refine orders.nodupKeys.eq_of_fst_eq hentry hentry' (UInt64.le_antisymm ?_ ?_)
  · exact h.2 entry' hentry' hsame.symm h'.1
  · exact h'.2 entry hentry hsame h.1

/-- The latest messages alone are level if all messages are. -/
theorem Level.of_latest (h : Level messages orders)
    (horders : ∀ orderId, orders.lookup orderId = latest messages orderId)
    (hpart : ∀ order ∈ messages', latest messages order.orderId = some order)
    (hall : ∀ entry ∈ orders.entries, entry.2 ∈ messages') : Level messages' orders := by
  have hmem : ∀ order ∈ messages',
      (⟨order.orderId, order⟩ : Sigma fun _ : UInt64 => Order) ∈ orders.entries := by
    intro order horder
    rw [← AList.mem_lookup_iff, Option.mem_def, horders, hpart order horder]
  intro order horder hnewest entry hentry hsame hentrynewest
  refine ⟨_, hmem order horder, rfl, rfl, ?_⟩
  obtain ⟨newest, hnewestmem, hhash, hnewestmessage⟩ :=
    exists_isNewestMessage (mem_of_latest (hpart order horder)).1
  -- as much is open of both as of the order of a newest message
  have hordernewest : IsNewest orders order := fun e he hkey => hnewest e.2 (hall e he) hkey
  obtain ⟨e, he, heid, -, heopen⟩ := h newest hnewestmem hnewestmessage _ (hmem order horder)
    hhash.symm hordernewest
  obtain ⟨e', he', heid', -, heopen'⟩ := h newest hnewestmem hnewestmessage entry hentry
    (hsame.trans hhash.symm) hentrynewest
  have heq := orders.nodupKeys.eq_of_fst_eq he he' (heid.trans heid'.symm)
  rw [← heopen, ← heopen', heq]

theorem level_congr (h : orders.entries.Perm orders'.entries) :
    Level messages orders ↔ Level messages orders' := by
  simp only [Level, isNewest_congr h, h.mem_iff]

/-- An order counts for what it adds in any case, and for what is open of it if it is the last. -/
theorem ite_volume (P : Prop) [Decidable P] (order : Order) :
    (if P then order.volume else if isFinalStatus order.status then tradedVolume order
      else order.volume) = settledVolume order + if P then openVolume order else 0 := by
  unfold settledVolume openVolume tradedVolume
  split
  · split
    · rw [Int64.sub_add_cancel]
    · rw [Int64.add_zero]
  · rw [Int64.add_zero]

theorem toBitVec_foldl_add {entries : List (Sigma fun _ : UInt64 => Order)}
    (volumeOf : (Sigma fun _ : UInt64 => Order) → Int64) (volume : Int64) :
    (entries.foldl (fun volume entry => volume + volumeOf entry) volume).toBitVec =
      volume.toBitVec + (entries.map fun entry => (volumeOf entry).toBitVec).sum := by
  induction entries generalizing volume with
  | nil => simp
  | cons entry entries ih =>
      rw [List.foldl_cons, ih, Int64.toBitVec_add, List.map_cons, List.sum_cons, add_assoc]

/-- Whichever order of each instrument and direction is the last, the volumes add up to the same, if
as much is open of it as of the one of the lowest id. -/
theorem foldl_add_last (P : (Sigma fun _ : UInt64 => Order) → Prop) [DecidablePred P]
    (hP : ∀ entry ∈ orders.entries, ∃ last ∈ orders.entries,
      hashInstrument last.2 = hashInstrument entry.2 ∧ P last ∧
      (∀ e ∈ orders.entries, hashInstrument e.2 = hashInstrument entry.2 → P e → e = last) ∧
      ∀ e ∈ orders.entries, hashInstrument e.2 = hashInstrument entry.2 → IsLast orders e →
        openVolume e.2 = openVolume last.2) :
    orders.entries.foldl (fun volume entry => volume +
        (settledVolume entry.2 + if P entry then openVolume entry.2 else 0)) 0 =
      orders.entries.foldl (fun volume entry => volume + countedVolume orders entry) 0 := by
  apply Int64.toBitVec_inj.mp
  simp only [countedVolume, ite_volume, toBitVec_foldl_add, Int64.toBitVec_add, List.sum_map_add]
  congr 2
  refine Tally.sum_congr (fun entry => hashInstrument entry.2) _ fun entry hentry => ?_
  obtain ⟨last, hlast, hhash, hmarked, hunique, hopen⟩ := hP entry hentry
  obtain ⟨lowest, hlowest, hsame, hisLast⟩ := exists_isLast hentry
  have hnodup := orders.nodupKeys.nodup
  have hleft := Tally.total_eq_of_unique (fun entry => hashInstrument entry.2)
    (fun entry => (if P entry then openVolume entry.2 else 0).toBitVec) hnodup hlast ?_
  · have hright := Tally.total_eq_of_unique (fun entry => hashInstrument entry.2)
      (fun entry => (if IsLast orders entry then openVolume entry.2 else 0).toBitVec) hnodup hlowest ?_
    · rw [hhash, if_pos hmarked] at hleft
      rw [hsame, if_pos hisLast, hopen lowest hlowest hsame hisLast] at hright
      exact hleft.trans hright.symm
    · intro e he hkey hne
      rw [if_neg fun h => hne (h.eq hisLast he hlowest hkey)]
      rfl
  · intro e he hkey hne
    rw [if_neg fun h => hne (hunique e he (hkey.trans hhash) h)]
    rfl

/-- What the latest messages come to does not depend on the order in which they are kept. -/
theorem standing_congr {basketOrder basketOrder' : BasketOrder}
    (hbasket : SameBasket basketOrder basketOrder')
    (h : orders.entries.Perm orders'.entries) :
    standing basketOrder orders = standing basketOrder' orders' := by
  have htraded : getTotalTradedVolume orders = getTotalTradedVolume orders' :=
    foldl_add_perm h (fun entry => tradedVolume entry.2) 0
  have hend : isAllOrderEnd orders = isAllOrderEnd orders' := h.all_eq
  have hvolume : basketVolume basketOrder orders = basketVolume basketOrder' orders' := by
    unfold basketVolume
    rw [← hbasket.2.1]
    split
    · rename_i hstatic
      exact hbasket.2.2 hstatic
    · simp only [countedVolume_congr h]
      exact foldl_add_perm h (countedVolume orders') 0
  rw [standing, standing, hvolume, htraded, hend]

end Latest

/-! ## What is kept of the messages -/

namespace BasketOrderState

section Tracks

variable {messages : List Order} {order : Order} {orders : OrderMap} {s s' : BasketOrderState}

/-- The latest messages are kept, and a newest one of each key. -/
structure Tracks (messages : List Order) (s : BasketOrderState) : Prop where
  orders : ∀ orderId, s.orders.lookup orderId = latest messages orderId
  newest : ∀ hashedKey last, s.lastOrderMap.lookup hashedKey = some last →
    last ∈ messages ∧ hashInstrument last = .ok hashedKey ∧
      ∀ order ∈ messages, hashInstrument order = .ok hashedKey →
        order.details.insertTime ≤ last.details.insertTime
  known : ∀ order ∈ messages, ∃ hashedKey last, hashInstrument order = .ok hashedKey ∧
    s.lastOrderMap.lookup hashedKey = some last

/-- What a message changes. -/
theorem exists_of_updateLatestOrder (h : s.updateLatestOrder order = .ok s') :
    ∃ hashedKey last, hashInstrument order = .ok hashedKey ∧ s'.data = s.data ∧
      s'.orders = s.orders.insert order.orderId order ∧
      (∀ key, s'.lastOrderMap.lookup key =
        if key = hashedKey then some last else s.lastOrderMap.lookup key) ∧
      ((last = order ∧ ∀ old, s.lastOrderMap.lookup hashedKey = some old →
          old.details.insertTime ≤ order.details.insertTime) ∨
        (s.lastOrderMap.lookup hashedKey = some last ∧
          order.details.insertTime ≤ last.details.insertTime)) := by
  obtain ⟨hashedKey, hhash, hret⟩ := Outcome.exists_of_bind h
  cases hret
  cases hold : s.lastOrderMap.lookup hashedKey with
  | none =>
      refine ⟨hashedKey, order, hhash, rfl, rfl, fun key => Table.lookup_insert_apply, .inl ⟨rfl, ?_⟩⟩
      intro old hsome
      cases hold.symm.trans hsome
  | some old =>
      by_cases hnewer : order.details.insertTime < old.details.insertTime
      · refine ⟨hashedKey, old, hhash, ?_, ?_, fun key => ?_,
          .inr ⟨hold, Int64.le_of_lt hnewer⟩⟩
        · simp [hnewer]
        · simp [hnewer]
        · simp only [hnewer, if_true]
          split
          · rename_i hkey
            rw [hkey, hold]
          · rfl
      · refine ⟨hashedKey, order, hhash, ?_, ?_, fun key => ?_, .inl ⟨rfl, ?_⟩⟩
        · simp [hnewer]
        · simp [hnewer]
        · simp only [hnewer, if_false]
          exact Table.lookup_insert_apply
        · intro old' hsome
          cases hold.symm.trans hsome
          exact Int64.not_lt.mp hnewer

theorem tracks_ofBasketOrder (basketOrder : BasketOrder) : Tracks [] (ofBasketOrder basketOrder) where
  orders := fun _ => rfl
  newest := fun _ _ h => (by cases h)
  known := fun _ h => (by cases h)

/-- The messages are kept after one more. -/
theorem Tracks.updateLatestOrder (h : Tracks messages s)
    (hok : s.updateLatestOrder order = .ok s') : Tracks (messages ++ [order]) s' := by
  obtain ⟨hashedKey, last, hhash, -, horders, hlast, hnewest⟩ := exists_of_updateLatestOrder hok
  constructor
  · intro orderId
    rw [horders, latest_concat, Table.lookup_insert_apply, h.orders]
    simp only [eq_comm]
  · intro key last' hlookup
    rw [hlast] at hlookup
    split at hlookup
    · rename_i hkey
      subst hkey
      cases hlookup
      rcases hnewest with ⟨rfl, hold⟩ | ⟨hold, hle⟩
      · refine ⟨by simp, hhash, fun o ho hsame => ?_⟩
        rcases List.mem_append.mp ho with ho | ho
        · obtain ⟨key', old, hkey', hlookup⟩ := h.known o ho
          cases hsame.symm.trans hkey'
          exact Int64.le_trans ((h.newest key old hlookup).2.2 o ho hsame) (hold old hlookup)
        · rw [List.mem_singleton.mp ho]
          exact Int64.le_refl _
      · obtain ⟨hmem, hlasthash, hall⟩ := h.newest key last hold
        refine ⟨List.mem_append_left _ hmem, hlasthash, fun o ho hsame => ?_⟩
        rcases List.mem_append.mp ho with ho | ho
        · exact hall o ho hsame
        · rw [List.mem_singleton.mp ho]
          exact hle
    · rename_i hkey
      obtain ⟨hmem, hlasthash, hall⟩ := h.newest key last' hlookup
      refine ⟨List.mem_append_left _ hmem, hlasthash, fun o ho hsame => ?_⟩
      rcases List.mem_append.mp ho with ho | ho
      · exact hall o ho hsame
      · rw [List.mem_singleton.mp ho] at hsame
        cases hhash.symm.trans hsame
        exact absurd rfl hkey
  · intro o ho
    rcases List.mem_append.mp ho with ho | ho
    · obtain ⟨key, old, hkey, hlookup⟩ := h.known o ho
      by_cases hsame : key = hashedKey
      · exact ⟨key, last, hkey, by rw [hlast, if_pos hsame]⟩
      · exact ⟨key, old, hkey, by rw [hlast, if_neg hsame, hlookup]⟩
    · rw [List.mem_singleton.mp ho]
      exact ⟨hashedKey, last, hhash, by rw [hlast, if_pos rfl]⟩

theorem Tracks.mem (h : Tracks messages s) {entry : Sigma fun _ : UInt64 => Order}
    (hentry : entry ∈ s.orders.entries) : entry.2 ∈ messages ∧ entry.2.orderId = entry.1 := by
  have hlookup := AList.mem_lookup_iff.mpr hentry
  rw [Option.mem_def, h.orders] at hlookup
  exact mem_of_latest hlookup

/-- An order is remembered as the newest one of its instrument and direction. -/
def IsMarked (s : BasketOrderState) (entry : Sigma fun _ : UInt64 => Order) : Prop :=
  ∃ hashedKey, hashInstrument entry.2 = .ok hashedKey ∧ s.isLastOrder hashedKey entry.2 = true

/-- One order of each instrument and direction is remembered, and as much is open of it as of the
newest ones. -/
theorem Tracks.exists_isMarked (h : Tracks messages s) (hlevel : Level messages s.orders)
    {entry : Sigma fun _ : UInt64 => Order} (hentry : entry ∈ s.orders.entries) :
    ∃ marked ∈ s.orders.entries, hashInstrument marked.2 = hashInstrument entry.2 ∧
      s.IsMarked marked ∧
      (∀ e ∈ s.orders.entries, hashInstrument e.2 = hashInstrument entry.2 → s.IsMarked e →
        e = marked) ∧
      ∀ e ∈ s.orders.entries, hashInstrument e.2 = hashInstrument entry.2 → IsLast s.orders e →
        openVolume e.2 = openVolume marked.2 := by
  obtain ⟨hashedKey, last, hkey, hlookup⟩ := h.known entry.2 (h.mem hentry).1
  obtain ⟨hlast, hlasthash, hall⟩ := h.newest hashedKey last hlookup
  -- what is remembered is a newest message
  have hfound : ∀ newest ∈ s.orders.entries, hashInstrument newest.2 = hashInstrument entry.2 →
      IsNewest s.orders newest.2 → ∃ marked ∈ s.orders.entries, marked.1 = last.orderId ∧
        hashInstrument marked.2 = hashInstrument newest.2 ∧
          openVolume marked.2 = openVolume newest.2 := by
    intro newest hmem hsame hnewest
    have hhash := (hsame.trans hkey).trans hlasthash.symm
    obtain ⟨marked, hmarked, hid, hmarkedhash, hopen⟩ := hlevel last hlast
      (fun order horder hsame => hall order horder (hsame.trans hlasthash)) newest hmem hhash hnewest
    exact ⟨marked, hmarked, hid, hmarkedhash.trans hhash.symm, hopen⟩
  obtain ⟨newest, hmem, hsame, hnewest⟩ := exists_isNewest hentry
  obtain ⟨marked, hmarked, hid, hhash, -⟩ := hfound newest hmem hsame hnewest
  have hmarkedkey : hashInstrument marked.2 = .ok hashedKey := hhash.trans (hsame.trans hkey)
  have hunique : ∀ e ∈ s.orders.entries, e.1 = last.orderId → e = marked := fun e he heid =>
    s.orders.nodupKeys.eq_of_fst_eq he hmarked (heid.trans hid.symm)
  refine ⟨marked, hmarked, hhash.trans hsame, ⟨hashedKey, hmarkedkey, ?_⟩, fun e he hkey' hise => ?_,
    fun e he hkey' hise => ?_⟩
  · rw [isLastOrder, hlookup]
    exact decide_eq_true (hid.symm.trans (h.mem hmarked).2.symm)
  · obtain ⟨key, hkey₁, hislast⟩ := hise
    cases hkey₁.symm.trans (hkey'.trans hkey)
    rw [isLastOrder, hlookup] at hislast
    exact hunique e he ((h.mem he).2.symm.trans (of_decide_eq_true hislast).symm)
  · obtain ⟨marked', hmarked', hid', -, hopen⟩ := hfound e he hkey' hise.1
    rw [← hunique marked' hmarked' hid', hopen]

/-- The volume is what the latest messages come to. -/
theorem Tracks.getTotalVolume (h : Tracks messages s) (hlevel : Level messages s.orders) :
    s.getTotalVolume = .ok (s.orders.entries.foldl (fun volume entry =>
      volume + countedVolume s.orders entry) 0) := by
  classical
  rw [← foldl_add_last s.IsMarked fun entry => h.exists_isMarked hlevel]
  refine Outcome.foldlM_eq_ok (fun entry hentry volume => ?_) 0
  obtain ⟨hmem, -⟩ := h.mem hentry
  obtain ⟨hashedKey, -, hhash, -⟩ := h.known entry.2 hmem
  have hiff : s.isLastOrder hashedKey entry.2 = true ↔ s.IsMarked entry := by
    refine ⟨fun hlast => ⟨hashedKey, hhash, hlast⟩, ?_⟩
    rintro ⟨key, hkey, hlast⟩
    cases hhash.symm.trans hkey
    exact hlast
  rw [hhash, Outcome.ok_bind, ite_volume]
  simp only [hiff]
  rfl

/-- After a message a basket order has the standing that the latest messages come to. -/
theorem Tracks.update (h : Tracks messages s) (hok : s.update order = .ok s') :
    Tracks (messages ++ [order]) s' ∧ SameBasket s.data s'.data ∧
      ((s.data.calculationMode = .Dynamic → Level (messages ++ [order]) s'.orders) →
        s'.data.standing = standing s.data s'.orders) := by
  obtain ⟨s₁, hupdate, hok⟩ := Outcome.exists_of_bind hok
  obtain ⟨volume, hvolume, hret⟩ := Outcome.exists_of_bind hok
  have htracks := h.updateLatestOrder hupdate
  obtain ⟨-, -, -, hdata, -⟩ := exists_of_updateLatestOrder hupdate
  cases hret
  unfold nextVolume at hvolume
  rw [hdata] at hvolume
  refine ⟨⟨htracks.orders, htracks.newest, htracks.known⟩, ⟨by rw [hdata], by rw [hdata], ?_⟩,
    fun hlevel => ?_⟩
  · intro hstatic
    rw [if_pos hstatic] at hvolume
    exact Except.ok.inj hvolume
  · have heq : volume = basketVolume s.data s₁.orders := by
      cases hmode : s.data.calculationMode with
      | Static =>
          rw [if_pos hmode] at hvolume
          rw [basketVolume, if_pos hmode]
          exact (Except.ok.inj hvolume).symm
      | Dynamic =>
          rw [hmode, if_neg (by decide), htracks.getTotalVolume (hlevel hmode)] at hvolume
          rw [basketVolume, hmode, if_neg (by decide)]
          exact (Except.ok.inj hvolume).symm
    rw [BasketOrder.standing, Basket.standing, heq]

theorem tracks_of_run {basketOrder : BasketOrder}
    (hrun : (ofBasketOrder basketOrder).updateAll messages = .ok s) :
    Tracks messages s ∧ SameBasket basketOrder s.data := by
  refine Outcome.foldlM_invariant
    (I := fun done s => Tracks done s ∧ SameBasket basketOrder s.data)
    ⟨tracks_ofBasketOrder basketOrder, ⟨rfl, rfl, fun _ => rfl⟩⟩
    (fun done order todo s s' _ hI hok => ?_) hrun
  obtain ⟨htracks, hbasket⟩ := hI
  obtain ⟨htracks', hsame, -⟩ := htracks.update hok
  refine ⟨htracks', hbasket.1.trans hsame.1, hbasket.2.1.trans hsame.2.1, fun hstatic => ?_⟩
  exact (hbasket.2.2 hstatic).trans (hsame.2.2 (hbasket.2.1 ▸ hstatic))

/-- After a run a basket order has the standing that the latest messages come to. -/
theorem standing_run {basketOrder : BasketOrder} (hne : messages ≠ [])
    (hlevel : basketOrder.calculationMode = .Dynamic → Level messages s.orders)
    (hrun : (ofBasketOrder basketOrder).updateAll messages = .ok s) :
    s.data.standing = Basket.standing basketOrder s.orders := by
  obtain ⟨done, order, rfl⟩ := List.eq_nil_or_concat' messages |>.resolve_left hne
  rw [updateAll, List.foldlM_append] at hrun
  obtain ⟨s₁, hdone, hlast⟩ := Outcome.exists_of_bind hrun
  obtain ⟨s₂, hlast, hret⟩ := Outcome.exists_of_bind hlast
  cases hret
  obtain ⟨htracks, hbasket⟩ := tracks_of_run hdone
  obtain ⟨-, -, hstanding⟩ := htracks.update hlast
  rw [hstanding fun hdynamic => hlevel (hbasket.2.1.trans hdynamic)]
  have hback : SameBasket s₁.data basketOrder :=
    ⟨hbasket.1.symm, hbasket.2.1.symm, fun h => (hbasket.2.2 (hbasket.2.1 ▸ h)).symm⟩
  exact standing_congr hback (List.Perm.refl _)

/-- After a run it has the standing that any table of the latest messages comes to. -/
theorem standing_of_latest {basketOrder basketOrder' : BasketOrder}
    (hbasket : SameBasket basketOrder basketOrder') (hne : messages ≠ [])
    (horders : ∀ orderId, orders.lookup orderId = latest messages orderId)
    (hlevel : basketOrder.calculationMode = .Dynamic → Level messages orders)
    (hrun : (ofBasketOrder basketOrder').updateAll messages = .ok s) :
    s.data.standing = Basket.standing basketOrder orders := by
  obtain ⟨htracks, -⟩ := tracks_of_run hrun
  have hperm : orders.entries.Perm s.orders.entries := perm_entries fun orderId => by
    rw [htracks.orders, horders]
  rw [standing_run hne (fun hdynamic =>
    (level_congr hperm).mp (hlevel (hbasket.2.1.trans hdynamic))) hrun]
  exact (standing_congr hbasket hperm).symm

end Tracks

end BasketOrderState

/-! ## Restoring -/

namespace BasketOrderEngine

variable {e e' : BasketOrderEngine} {basketOrder : BasketOrder} {bank : Bank} {orderId : UInt64}
  {order : Order}

/-- The orders of a basket order. -/
def children (bank : Bank) (orderId : UInt64) : List Order :=
  bank.orders.filter (·.parentId = orderId)

theorem lookup_makeBasketOrderState_of_mem (h : orderId ∈ e) :
    (makeBasketOrderState e basketOrder).lookup orderId = e.lookup orderId := by
  obtain ⟨state, hstate⟩ := Option.isSome_iff_exists.mp (AList.lookup_isSome.mpr h)
  rw [makeBasketOrderState, Table.lookup_tryEmplace_apply]
  split
  · rename_i hid
    rw [← hid, hstate, Option.getD_some]
  · rfl

/-- Every basket order of the bank is made, from its own record. -/
theorem lookup_foldl_makeBasketOrderState {basketOrders : List BasketOrder}
    (hids : (basketOrders.map (·.orderId)).Nodup) (hmem : basketOrder ∈ basketOrders)
    (hnew : ∀ basketOrder ∈ basketOrders, basketOrder.orderId ∉ e) :
    (basketOrders.foldl makeBasketOrderState e).lookup basketOrder.orderId =
      some (.ofBasketOrder basketOrder) := by
  have hkeep : ∀ (todo : List BasketOrder) (e : BasketOrderEngine) (id : UInt64), id ∈ e →
      (todo.foldl makeBasketOrderState e).lookup id = e.lookup id := by
    intro todo
    induction todo with
    | nil => exact fun e id _ => rfl
    | cons b todo ih =>
        intro e id hid
        have hafter : id ∈ makeBasketOrderState e b := by
          rw [makeBasketOrderState, Table.mem_tryEmplace]
          exact .inr hid
        rw [List.foldl_cons, ih _ id hafter, lookup_makeBasketOrderState_of_mem hid]
  induction basketOrders generalizing e with
  | nil => cases hmem
  | cons b todo ih =>
      rw [List.foldl_cons]
      obtain ⟨hb, htodo⟩ := List.nodup_cons.mp hids
      rcases List.mem_cons.mp hmem with rfl | hmem
      · have hafter : basketOrder.orderId ∈ makeBasketOrderState e basketOrder := by
          rw [makeBasketOrderState, Table.mem_tryEmplace]
          exact .inl rfl
        rw [hkeep todo _ _ hafter, makeBasketOrderState, Table.lookup_tryEmplace_apply, if_pos rfl,
          AList.lookup_eq_none.mpr (hnew basketOrder (by simp)), Option.getD_none]
      · refine ih htodo hmem fun b' hb' => ?_
        rw [makeBasketOrderState, Table.mem_tryEmplace, not_or]
        refine ⟨fun hsame => hb ?_, hnew b' (List.mem_cons_of_mem b hb')⟩
        exact List.mem_map.mpr ⟨b', hb', hsame⟩

/-- An order changes its own basket order. -/
theorem lookup_of_tryUpdateBasketOrder {state : BasketOrderState} (hzero : orderId ≠ 0)
    (hstate : e.lookup orderId = some state) (hok : tryUpdateBasketOrder e order = .ok e') :
    ∃ state', e'.lookup orderId = some state' ∧
      if order.parentId = orderId then state.update order = .ok state' else state' = state := by
  unfold tryUpdateBasketOrder at hok
  by_cases hparent : order.parentId = orderId
  · subst hparent
    rw [if_neg hzero, hstate] at hok
    obtain ⟨state', hupdate, hret⟩ := Outcome.exists_of_bind hok
    cases hret
    exact ⟨state', by simp, by rwa [if_pos rfl]⟩
  · refine ⟨state, ?_, by rw [if_neg hparent]⟩
    split at hok
    · cases hok
      exact hstate
    · split at hok
      · cases hok
        exact hstate
      · obtain ⟨state', -, hret⟩ := Outcome.exists_of_bind hok
        cases hret
        rw [Table.lookup_insert_apply, if_neg (Ne.symm hparent)]
        exact hstate

/-- A basket order that is restored is one whose orders came as they are in the bank. -/
theorem updateAll_of_restore (hids : (bank.basketOrders.map (·.orderId)).Nodup)
    (hmem : basketOrder ∈ bank.basketOrders) (hzero : basketOrder.orderId ≠ 0)
    (hok : restore bank = .ok e) : ∃ state, e.lookup basketOrder.orderId = some state ∧
      (BasketOrderState.ofBasketOrder basketOrder).updateAll
        (children bank basketOrder.orderId) = .ok state := by
  have hmade := lookup_foldl_makeBasketOrderState (e := ∅) hids hmem
    fun b _ => AList.notMem_empty b.orderId
  refine Outcome.foldlM_invariant (I := fun done e => ∃ state,
    e.lookup basketOrder.orderId = some state ∧
      (BasketOrderState.ofBasketOrder basketOrder).updateAll
        (done.filter (·.parentId = basketOrder.orderId)) = .ok state)
    ⟨_, hmade, rfl⟩ (fun done order todo e e' _ hI hstep => ?_) hok
  obtain ⟨state, hstate, hrun⟩ := hI
  obtain ⟨state', hstate', hupdate⟩ := lookup_of_tryUpdateBasketOrder hzero hstate hstep
  refine ⟨state', hstate', ?_⟩
  rw [BasketOrderState.updateAll] at hrun ⊢
  rw [List.filter_append, List.foldlM_append, hrun, Outcome.ok_bind]
  by_cases hparent : order.parentId = basketOrder.orderId
  · rw [if_pos hparent] at hupdate
    simp [hparent, hupdate]
  · rw [if_neg hparent] at hupdate
    simp [hparent, hupdate]
    rfl

end BasketOrderEngine

/-! ## Bounds -/

/-- The volumes of orders are right and can be added, and a volume that is given covers what is
traded. -/
structure Sane (basketOrder : BasketOrder) (orders : OrderMap) : Prop where
  nonneg : ∀ entry ∈ orders.entries, 0 ≤ entry.2.volumeLeft.toInt
  le_volume : ∀ entry ∈ orders.entries, entry.2.volumeLeft.toInt ≤ entry.2.volume.toInt
  fits : (orders.entries.map fun entry => entry.2.volume.toInt).sum < 9223372036854775808
  covered : basketOrder.calculationMode = .Static →
    (orders.entries.map fun entry => entry.2.volume.toInt - entry.2.volumeLeft.toInt).sum ≤
      basketOrder.volume.toInt

section Bounds

variable {basketOrder : BasketOrder} {orders : OrderMap} {order : Order}
  {entries : List (Sigma fun _ : UInt64 => Order)}

theorem toInt_tradedVolume (hnonneg : 0 ≤ order.volumeLeft.toInt)
    (hle : order.volumeLeft.toInt ≤ order.volume.toInt) :
    (tradedVolume order).toInt = order.volume.toInt - order.volumeLeft.toInt := by
  have hbound := Int64.toInt_lt order.volume
  rw [tradedVolume, Int64.toInt_sub, Int.bmod_eq_of_le] <;> omega

/-- Volumes that can be added are. -/
theorem toInt_foldl_add {volumeOf : (Sigma fun _ : UInt64 => Order) → Int64} {volume : Int64}
    (hnonneg : ∀ entry ∈ entries, 0 ≤ (volumeOf entry).toInt) (hvolume : 0 ≤ volume.toInt)
    (hfits : volume.toInt + (entries.map fun entry => (volumeOf entry).toInt).sum <
      9223372036854775808) :
    (entries.foldl (fun volume entry => volume + volumeOf entry) volume).toInt =
      volume.toInt + (entries.map fun entry => (volumeOf entry).toInt).sum := by
  induction entries generalizing volume with
  | nil => simp
  | cons entry entries ih =>
      have hhead := hnonneg entry (by simp)
      have htail : ∀ e ∈ entries, 0 ≤ (volumeOf e).toInt :=
        fun e he => hnonneg e (List.mem_cons_of_mem entry he)
      have hsum : 0 ≤ (entries.map fun entry => (volumeOf entry).toInt).sum := by
        refine List.sum_nonneg fun v hv => ?_
        obtain ⟨e, he, rfl⟩ := List.mem_map.mp hv
        exact htail e he
      rw [List.map_cons, List.sum_cons] at hfits ⊢
      have hadd : (volume + volumeOf entry).toInt = volume.toInt + (volumeOf entry).toInt := by
        rw [Int64.toInt_add, Int.bmod_eq_of_le] <;> omega
      rw [List.foldl_cons, ih htail (by omega) (by omega), hadd]
      omega

/-- An order counts for what was traded of it at least, and for its volume at most. -/
theorem countedVolume_bounds (orders : OrderMap) {entry : Sigma fun _ : UInt64 => Order}
    (hnonneg : 0 ≤ entry.2.volumeLeft.toInt) (hle : entry.2.volumeLeft.toInt ≤ entry.2.volume.toInt) :
    (tradedVolume entry.2).toInt ≤ (countedVolume orders entry).toInt ∧
      (countedVolume orders entry).toInt ≤ entry.2.volume.toInt := by
  have htraded := toInt_tradedVolume hnonneg hle
  unfold countedVolume
  split
  · omega
  · split <;> omega

theorem Sane.map_tradedVolume (h : Sane basketOrder orders) :
    (orders.entries.map fun entry => (tradedVolume entry.2).toInt) =
      orders.entries.map fun entry => entry.2.volume.toInt - entry.2.volumeLeft.toInt :=
  List.map_congr_left fun entry hentry =>
    toInt_tradedVolume (h.nonneg entry hentry) (h.le_volume entry hentry)

theorem Sane.tradedVolume_nonneg (h : Sane basketOrder orders) :
    ∀ entry ∈ orders.entries, 0 ≤ (tradedVolume entry.2).toInt := by
  intro entry hentry
  have hle := h.le_volume entry hentry
  rw [toInt_tradedVolume (h.nonneg entry hentry) hle]
  omega

/-- What is traded, what is counted and the volumes can be added. -/
theorem Sane.sums (h : Sane basketOrder orders) :
    0 ≤ (orders.entries.map fun entry => (tradedVolume entry.2).toInt).sum ∧
      (orders.entries.map fun entry => (tradedVolume entry.2).toInt).sum ≤
        (orders.entries.map fun entry => (countedVolume orders entry).toInt).sum ∧
      (orders.entries.map fun entry => (countedVolume orders entry).toInt).sum <
        9223372036854775808 := by
  have hbounds := fun entry hentry =>
    countedVolume_bounds orders (h.nonneg entry hentry) (h.le_volume entry hentry)
  refine ⟨List.sum_nonneg fun v hv => ?_, List.sum_le_sum fun entry hentry => ?_, ?_⟩
  · obtain ⟨entry, hentry, rfl⟩ := List.mem_map.mp hv
    exact h.tradedVolume_nonneg entry hentry
  · exact (hbounds entry hentry).1
  · exact lt_of_le_of_lt (List.sum_le_sum fun entry hentry => (hbounds entry hentry).2) h.fits

theorem Sane.toInt_getTotalTradedVolume (h : Sane basketOrder orders) :
    (getTotalTradedVolume orders).toInt =
      (orders.entries.map fun entry => (tradedVolume entry.2).toInt).sum := by
  obtain ⟨-, hle, hfits⟩ := h.sums
  have hzero : (0 : Int64).toInt = 0 := rfl
  rw [getTotalTradedVolume, toInt_foldl_add h.tradedVolume_nonneg (le_refl 0)]
  · rw [hzero, zero_add]
  · rw [hzero, zero_add]
    exact lt_of_le_of_lt hle hfits

/-- The volume covers what is traded. -/
theorem Sane.getTotalTradedVolume_le (h : Sane basketOrder orders) :
    (getTotalTradedVolume orders).toInt ≤ (basketVolume basketOrder orders).toInt := by
  rw [h.toInt_getTotalTradedVolume]
  unfold basketVolume
  split
  · rename_i hstatic
    rw [h.map_tradedVolume]
    exact h.covered hstatic
  · obtain ⟨-, hle, hfits⟩ := h.sums
    have hzero : (0 : Int64).toInt = 0 := rfl
    have hnonneg : ∀ entry ∈ orders.entries, 0 ≤ (countedVolume orders entry).toInt :=
      fun entry hentry => (h.tradedVolume_nonneg entry hentry).trans
        (countedVolume_bounds _ (h.nonneg entry hentry) (h.le_volume entry hentry)).1
    rw [toInt_foldl_add hnonneg (le_refl 0)]
    · rw [hzero, zero_add]
      exact hle
    · rw [hzero, zero_add]
      exact hfits

/-- What is left of a basket order is not negative, and no more than its volume. -/
theorem Sane.bounds (h : Sane basketOrder orders) :
    (standing basketOrder orders).2.1.toInt = (standing basketOrder orders).1.toInt -
        (orders.entries.map fun entry => entry.2.volume.toInt - entry.2.volumeLeft.toInt).sum ∧
      0 ≤ (standing basketOrder orders).2.1.toInt ∧
      (standing basketOrder orders).2.1.toInt ≤ (standing basketOrder orders).1.toInt := by
  have htraded := h.toInt_getTotalTradedVolume
  have hle := h.getTotalTradedVolume_le
  obtain ⟨hnonneg, -⟩ := h.sums
  rw [← h.map_tradedVolume]
  have hbound := Int64.toInt_lt (basketVolume basketOrder orders)
  have hleft : (standing basketOrder orders).2.1.toInt =
      (basketVolume basketOrder orders).toInt - (getTotalTradedVolume orders).toInt := by
    change (basketVolume basketOrder orders - getTotalTradedVolume orders).toInt = _
    rw [Int64.toInt_sub, Int.bmod_eq_of_le] <;> omega
  have hvolume : (standing basketOrder orders).1 = basketVolume basketOrder orders := rfl
  rw [hleft, hvolume, htraded]
  refine ⟨rfl, ?_, ?_⟩ <;> omega

end Bounds

namespace BasketOrderState

/-- A basket order has the standing that the latest messages of its orders come to.  Hence it has
the same one however else they come, and when it is restored. -/
theorem standing_of_run (basketOrder : BasketOrder) (messages : List Order) (s : BasketOrderState)
    (orders : OrderMap) (hrun : (ofBasketOrder basketOrder).updateAll messages = .ok s)
    (hne : messages ≠ [])
    (horders : ∀ orderId, orders.lookup orderId = latest messages orderId)
    (hlevel : basketOrder.calculationMode = .Dynamic → Level messages orders) :
    s.data.standing = Basket.standing basketOrder orders ∧
    (∀ basketOrder' messages' s', SameBasket basketOrder basketOrder' →
      (basketOrder.calculationMode = .Dynamic → Level messages' orders) →
      (∀ orderId, latest messages orderId = latest messages' orderId) →
      (ofBasketOrder basketOrder').updateAll messages' = .ok s' →
        s'.data.standing = s.data.standing) ∧
    (∀ bank engine, ∀ basketOrder' ∈ bank.basketOrders, SameBasket basketOrder basketOrder' →
      (bank.basketOrders.map (·.orderId)).Nodup → (bank.orders.map (·.orderId)).Nodup →
      basketOrder.orderId ≠ 0 →
      (∀ orderId, latest messages orderId =
        latest (BasketOrderEngine.children bank basketOrder.orderId) orderId) →
      BasketOrderEngine.restore bank = .ok engine →
        ∃ s', engine.lookup basketOrder.orderId = some s' ∧ s'.data.standing = s.data.standing) ∧
    s.data.volumeLeft = s.data.volume - getTotalTradedVolume orders ∧
    (Sane basketOrder orders →
      s.data.volumeLeft.toInt = s.data.volume.toInt - (orders.entries.map fun entry =>
        entry.2.volume.toInt - entry.2.volumeLeft.toInt).sum ∧
      0 ≤ s.data.volumeLeft.toInt ∧ s.data.volumeLeft.toInt ≤ s.data.volume.toInt) ∧
    (s.data.status = .Filled ↔ isAllOrderEnd orders = true ∧ s.data.volumeLeft = 0) := by
  have hstanding : s.data.standing = Basket.standing basketOrder orders :=
    standing_of_latest ⟨rfl, rfl, fun _ => rfl⟩ hne horders hlevel hrun
  have hvolume : s.data.volume = (Basket.standing basketOrder orders).1 :=
    congrArg Prod.fst hstanding
  have hleft : s.data.volumeLeft = (Basket.standing basketOrder orders).2.1 :=
    congrArg (fun standing => standing.2.1) hstanding
  have hstatus : s.data.status = (Basket.standing basketOrder orders).2.2 :=
    congrArg (fun standing => standing.2.2) hstanding
  have hother {messages' : List Order}
      (hlatest : ∀ orderId, latest messages orderId = latest messages' orderId) : messages' ≠ [] := by
    rintro rfl
    obtain ⟨order, hmem⟩ := List.exists_mem_of_ne_nil messages hne
    obtain ⟨last, hlast⟩ := exists_latest hmem
    rw [hlatest] at hlast
    cases hlast
  refine ⟨hstanding, ?_, ?_, ?_, fun hsane => ?_, ?_⟩
  · intro basketOrder' messages' s' hbasket hlevel' hlatest hrun'
    rw [hstanding]
    exact standing_of_latest hbasket (hother hlatest)
      (fun orderId => (horders orderId).trans (hlatest orderId)) hlevel' hrun'
  · intro bank engine basketOrder' hmem hbasket hbaskets hids hzero hlatest hrestore
    rw [hbasket.1] at hzero hlatest ⊢
    obtain ⟨s', hs', hrun'⟩ := BasketOrderEngine.updateAll_of_restore hbaskets hmem hzero hrestore
    refine ⟨s', hs', hstanding ▸ standing_of_latest hbasket (hother hlatest)
      (fun orderId => (horders orderId).trans (hlatest orderId)) (fun hdynamic => ?_) hrun'⟩
    -- what the bank has of an order is its latest message
    have hsublist : (BasketOrderEngine.children bank basketOrder'.orderId).Sublist bank.orders :=
      List.filter_sublist
    have hchildren := hids.sublist (hsublist.map _)
    refine (hlevel hdynamic).of_latest horders
      (fun order horder => (hlatest _).trans (latest_of_nodup hchildren horder)) fun entry hentry => ?_
    have hlookup := AList.mem_lookup_iff.mpr hentry
    rw [Option.mem_def, horders, hlatest] at hlookup
    exact (mem_of_latest hlookup).1
  · rw [hleft, hvolume]
    rfl
  · rw [hleft, hvolume]
    exact hsane.bounds
  · rw [hstatus, hleft]
    change basketStatus (isAllOrderEnd orders) _ (Basket.standing basketOrder orders).2.1 = _ ↔ _
    unfold basketStatus
    split
    · rename_i h
      exact iff_of_true rfl h
    · rename_i h
      refine iff_of_false ?_ h
      split
      · exact nofun
      · split <;> exact nofun

end BasketOrderState

/-- A basket order in the dynamic mode. -/
def exampleBasketOrder : BasketOrder := ⟨7, 0, 0, .Pending, .Dynamic⟩

/-- An order to buy rb2410 that is cancelled. -/
def exampleOrder (orderId : UInt64) (volume insertTime : Int64) : Order where
  orderId := orderId
  externalOrderId := ""
  parentId := 7
  instrumentId := "rb2410"
  exchangeId := "SHFE"
  instrumentType := .Future
  limitPrice := 3500
  frozenPrice := 3500
  volume := volume
  volumeLeft := volume
  status := .Cancelled
  errorId := 0
  errorMsg := ""
  side := .Buy
  priceType := .Limit
  details := ⟨.Open, insertTime⟩

namespace BasketOrderState

/-- Of three orders two are as new as each other, and as much is open of them; they come in any
order. -/
theorem standing_of_run_example : ∃ s s',
    (ofBasketOrder exampleBasketOrder).updateAll
        [exampleOrder 1 20 4, exampleOrder 2 10 5, exampleOrder 3 10 5] = .ok s ∧
      (ofBasketOrder exampleBasketOrder).updateAll
        [exampleOrder 3 10 5, exampleOrder 2 10 5, exampleOrder 1 20 4] = .ok s' ∧
      s.data.volume = 10 ∧ s'.data.standing = s.data.standing := by
  obtain ⟨s, hrun, hs⟩ := Outcome.exists_of_any (x := (ofBasketOrder exampleBasketOrder).updateAll
      [exampleOrder 1 20 4, exampleOrder 2 10 5, exampleOrder 3 10 5])
    (p := fun s => s.data.volume = 10 ∧
      Level [exampleOrder 1 20 4, exampleOrder 2 10 5, exampleOrder 3 10 5] s.orders ∧
      Level [exampleOrder 3 10 5, exampleOrder 2 10 5, exampleOrder 1 20 4] s.orders)
    (by decide +kernel)
  obtain ⟨s', hrun'⟩ := Outcome.exists_of_isOk (x := (ofBasketOrder exampleBasketOrder).updateAll
    [exampleOrder 3 10 5, exampleOrder 2 10 5, exampleOrder 1 20 4]) (by decide +kernel)
  obtain ⟨hvolume, hlevel, hlevel'⟩ := of_decide_eq_true hs
  have hresult := standing_of_run exampleBasketOrder
    [exampleOrder 1 20 4, exampleOrder 2 10 5, exampleOrder 3 10 5] s s.orders hrun (by simp)
    (tracks_of_run hrun).1.orders fun _ => hlevel
  refine ⟨s, s', hrun, hrun', hvolume, hresult.2.1 exampleBasketOrder _ s' ⟨rfl, rfl, fun _ => rfl⟩
    (fun _ => hlevel') (fun orderId => ?_) hrun'⟩
  by_cases hfirst : (1 : UInt64) = orderId
  · subst hfirst
    rfl
  · by_cases hsecond : (2 : UInt64) = orderId
    · subst hsecond
      rfl
    · by_cases hthird : (3 : UInt64) = orderId
      · subst hthird
        rfl
      · simp [latest, exampleOrder, hfirst, hsecond, hthird]

/-- Two orders that are as new as each other; the volume depends on which of them comes last. -/
theorem volume_ne_of_tie : ∃ s s',
    (ofBasketOrder exampleBasketOrder).updateAll [exampleOrder 1 10 5, exampleOrder 2 20 5] =
        .ok s ∧
      (ofBasketOrder exampleBasketOrder).updateAll [exampleOrder 2 20 5, exampleOrder 1 10 5] =
        .ok s' ∧
      (∀ orderId, latest [exampleOrder 1 10 5, exampleOrder 2 20 5] orderId =
        latest [exampleOrder 2 20 5, exampleOrder 1 10 5] orderId) ∧
      s.data.volume ≠ s'.data.volume := by
  obtain ⟨s, hrun, hvolume⟩ := Outcome.exists_of_any
    (x := (ofBasketOrder exampleBasketOrder).updateAll [exampleOrder 1 10 5, exampleOrder 2 20 5])
    (p := fun s => s.data.volume = 20) (by decide +kernel)
  obtain ⟨s', hrun', hvolume'⟩ := Outcome.exists_of_any
    (x := (ofBasketOrder exampleBasketOrder).updateAll [exampleOrder 2 20 5, exampleOrder 1 10 5])
    (p := fun s => s.data.volume = 10) (by decide +kernel)
  refine ⟨s, s', hrun, hrun', fun orderId => ?_, ?_⟩
  · by_cases hfirst : (1 : UInt64) = orderId
    · subst hfirst
      rfl
    · by_cases hsecond : (2 : UInt64) = orderId
      · subst hsecond
        rfl
      · simp [latest, exampleOrder, hfirst, hsecond]
  · rw [of_decide_eq_true hvolume, of_decide_eq_true hvolume']
    decide

end BasketOrderState

end Kungfu.Wingchun.Basket
