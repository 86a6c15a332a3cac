import Kungfu.Ctp.Mapping
import Kungfu.Logic.Run

/-!
# Which order a cancel addresses

`cancel_order` sends the order ref it has for an order id, under the session the trader is
logged in under now.  The order ref is the right one in every run in which order ids are not
used twice: whatever callbacks and restarts do to the maps, an id never leads to another
order's ref.  So the action addresses the order just when the session has not changed since
the order was inserted.
-/

namespace Kungfu.Ctp

open Longfist Logic

variable {δ : Type}

namespace Day

/-- An order id that occurs in an insertion or in a published record. -/
def Known (day : Day δ) (id : UInt64) : Prop :=
  (∃ p ∈ day.placed, p.orderId = id) ∨ ∃ e ∈ day.published, e.record.orderId = id

/-- An order ref and an order id that may be entered together: the id is known, and an order
that has it has the order ref as well. -/
def Names (day : Day δ) (orderRef : String) (id : UInt64) : Prop :=
  day.Known id ∧ ∀ p ∈ day.placed, p.orderId = id → orderRef = p.key.orderRef

/-- Ids lead to the order refs of their orders: in the maps, and in what is recovered from. -/
structure Named (day : Day δ) : Prop where
  entries : day.trader.Entries day.Names
  orders : ∀ e ∈ day.published, ∀ order, e.record = .order order → order.externalOrderId ≠ "" →
    day.Names order.externalOrderId order.orderId

variable (M : Markets) (day : Day δ)

/-- An order that is found under no order ref gets an id that no order of the trader's has. -/
def DistinctOrder (order : OrderField δ) : Prop :=
  day.trader.InSession order ∧ order.orderRef ≠ "" ∧
      (day.trader.refToOrderId order.orderRef).isSome ∨
    ∀ p ∈ day.placed, p.orderId ≠ syntheticOrderId M order

def DistinctTask : Task δ → Prop
  | .onRtnOrder order => day.DistinctOrder M order
  | .onQryOrder order _ => day.DistinctOrder M order
  | _ => True

/-- The condition on a step: ids are not used for two orders. -/
def Distinct : Step δ → Prop
  | .task => ∀ task ∈ day.trader.pending.head?, day.DistinctTask M task
  | .orderInput input source ret =>
      (day.trader.insertOrder input source ret).2.isNone → ¬ day.Known input.orderId
  | _ => True

instance (id : UInt64) : Decidable (day.Known id) := inferInstanceAs (Decidable (_ ∨ _))

instance (order : OrderField δ) : Decidable (day.DistinctOrder M order) :=
  inferInstanceAs (Decidable (_ ∨ _))

instance : (task : Task δ) → Decidable (day.DistinctTask M task)
  | .onRtnOrder order => inferInstanceAs (Decidable (day.DistinctOrder M order))
  | .onQryOrder order _ => inferInstanceAs (Decidable (day.DistinctOrder M order))
  | .onFrontDisconnected | .onLoginSuccess _ _ | .onLoginFailed | .onSettlementConfirmed |
    .onRtnTrade _ | .onQryTrade _ _ | .onOrderInsertRejected _ _ => inferInstanceAs (Decidable True)

instance : (s : Step δ) → Decidable (day.Distinct M s)
  | .task => Option.decidableForallMem (p := fun task => day.DistinctTask M task) _
  | .orderInput _ _ _ => inferInstanceAs (Decidable (_ → _))
  | .callback _ | .drainTasks | .missInput _ _ | .orderAction _ _ | .writeTo _ |
    .restart _ _ _ => inferInstanceAs (Decidable True)

end Day

namespace Day

variable {M : Markets} {E : Exchange δ} {day day' : Day δ}

/-! ## What steps with distinct ids preserve -/

theorem Known.mono {id : UInt64} (h : day.Known id) (hplaced : ∀ p ∈ day.placed, p ∈ day'.placed)
    (hpublished : ∀ e ∈ day.published, e ∈ day'.published) : day'.Known id := by
  rcases h with ⟨p, hp, hid⟩ | ⟨e, he, hid⟩
  · exact .inl ⟨p, hplaced p hp, hid⟩
  · exact .inr ⟨e, hpublished e he, hid⟩

theorem Names.mono {orderRef : String} {id : UInt64} (h : day.Names orderRef id)
    (hplaced : day'.placed = day.placed) (hpublished : ∀ e ∈ day.published, e ∈ day'.published) :
    day'.Names orderRef id :=
  ⟨h.1.mono (fun _ hp => hplaced ▸ hp) hpublished, fun p hp => h.2 p (hplaced ▸ hp)⟩

/-- A report about an order of the trader's carries the order's own ref. -/
theorem Named.orderFromCtp (H : day.Named) {order : OrderField δ}
    (hdistinct : day.DistinctOrder M order) {p : Placement} (hp : p ∈ day.placed)
    (hid : p.orderId = (day.trader.orderFromCtp M order).orderId) :
    order.orderRef = p.key.orderRef := by
  rcases Trader.orderId_orderFromCtp M order with hmapped | ⟨hnone, hsynthetic⟩
  · exact (H.entries.refs _ _ hmapped).2 p hp hid
  · rcases hdistinct with ⟨hsession, hne, hsome⟩ | hstray
    · rcases hnone hsession with hnone | hempty
      · rw [hnone] at hsome
        cases hsome
      · exact absurd hempty hne
    · exact absurd (hid.trans hsynthetic) (hstray p hp)

theorem Named.orderRef_task (H : day.Named) {task : Task δ} (hdistinct : day.DistinctTask M task)
    {order : Order δ} {source : UInt32}
    (h : (task.perform M day.trader).2 = some ⟨.order order, source⟩) {p : Placement}
    (hp : p ∈ day.placed) (hid : p.orderId = order.orderId) :
    order.externalOrderId = p.key.orderRef := by
  cases task with
  | onFrontDisconnected | onLoginFailed | onSettlementConfirmed => cases h
  | onLoginSuccess _ _ => cases h
  | onRtnTrade _ | onQryTrade _ _ =>
    exact absurd (congrArg Publication.record (Option.some.inj h)) (Record.trade_ne_order _ order)
  | onRtnOrder order' =>
    obtain rfl := Record.order.inj (congrArg Publication.record (Option.some.inj h))
    exact H.orderFromCtp hdistinct hp hid
  | onQryOrder order' _ =>
    obtain rfl := Record.order.inj (congrArg Publication.record (Option.some.inj h))
    exact H.orderFromCtp hdistinct hp hid
  | onOrderInsertRejected input error =>
    simp only [Task.perform] at h
    cases href : day.trader.refToOrderId input.orderRef with
    | none => rw [href] at h; cases h
    | some id =>
      rw [href] at h
      obtain rfl := Record.order.inj (congrArg Publication.record (Option.some.inj h))
      exact (H.entries.refs _ _ href).2 p hp hid

theorem Named.of_maps (H : day.Named) (hplaced : day'.placed = day.placed)
    (hpublished : day'.published = day.published)
    (hmaps : ∀ P, day.trader.Entries P → day'.trader.Entries P) : day'.Named where
  entries := (hmaps _ H.entries).mono fun _ _ h => h.mono hplaced fun _ he => hpublished ▸ he
  orders e he order horder hne :=
    (H.orders e (hpublished ▸ he) order horder hne).mono hplaced fun _ he => hpublished ▸ he

theorem Named.perform (H : day.Named) {task : Task δ} (hdistinct : day.DistinctTask M task) :
    (day.perform M E task).Named := by
  have hplaced : (day.perform M E task).placed = day.placed := placed_publish _ _ day
  have hold : ∀ e ∈ day.published, e ∈ (day.perform M E task).published :=
    fun e he => (mem_published_publish _ _ day).mpr (.inl he)
  constructor
  · exact (H.entries.perform M task).mono fun _ _ h => h.mono hplaced hold
  · intro e he order horder hne
    rcases (mem_published_publish _ _ day).mp he with hmem | ⟨⟨record, source⟩, hp, rfl⟩
    · exact (H.orders e hmem order horder hne).mono hplaced hold
    · obtain rfl : record = .order order := horder
      refine ⟨.inr ⟨_, he, rfl⟩, fun p hp' hid => ?_⟩
      exact H.orderRef_task hdistinct hp (hplaced ▸ hp') hid

/-- An order is entered under an id that was not known. -/
theorem Named.enter (H : day.Named) {input : OrderInput δ} (hnew : ¬ day.Known input.orderId)
    {source : UInt32} {key : OrderKey}
    (hkey : key.orderRef = toString (day.trader.orderRefCounter + 1))
    (hplaced : day'.placed = ⟨Owner.ofInput input source, key⟩ :: day.placed)
    (hpublished : day'.published = day.published)
    (htrader : day'.trader = day.trader.enter input source) : day'.Named := by
  have hnames : ∀ orderRef id, day.Names orderRef id → day'.Names orderRef id := by
    intro orderRef id h
    constructor
    · exact h.1.mono (fun p hp => hplaced ▸ List.mem_cons_of_mem _ hp) fun _ he => hpublished ▸ he
    · intro p hp hid
      rcases List.mem_cons.mp (hplaced ▸ hp) with rfl | hp
      · exact absurd h.1 (hid ▸ hnew)
      · exact h.2 p hp hid
  have hnamed : day'.Names (toString (day.trader.orderRefCounter + 1)) input.orderId := by
    constructor
    · exact .inl ⟨_, hplaced ▸ List.mem_cons_self, rfl⟩
    · intro p hp hid
      rcases List.mem_cons.mp (hplaced ▸ hp) with rfl | hp
      · exact hkey.symm
      · exact absurd (.inl ⟨p, hp, hid⟩) hnew
  constructor
  · rw [htrader]
    exact (H.entries.mono hnames).update hnamed rfl rfl
  · intro e he order horder hne
    exact hnames _ _ (H.orders e (hpublished ▸ he) order horder hne)

theorem Named.orderInput (H : day.Named) {input : OrderInput δ} {source : UInt32} {ret : Int32}
    (hnew : (day.trader.insertOrder input source ret).2.isNone → ¬ day.Known input.orderId) :
    (day.orderInput input source ret).Named := by
  unfold Day.orderInput
  split
  · exact H
  · rcases Trader.insertOrder_cases input source ret day.trader with
      ⟨counter, order, hinsert, -, -, -, hempty, -⟩ | hinsert
    · rw [hinsert]
      constructor
      · exact Trader.Entries.mono ⟨H.entries.refs, H.entries.infos⟩ fun _ _ h =>
          h.mono rfl fun _ he => List.mem_append_left _ he
      · intro e he order' horder' hne
        rcases List.mem_append.mp he with hmem | hlast
        · exact (H.orders e hmem order' horder' hne).mono rfl fun _ he => List.mem_append_left _ he
        · obtain rfl := List.mem_singleton.mp hlast
          obtain rfl := Record.order.inj horder'
          exact absurd hempty hne
    · rw [hinsert] at hnew ⊢
      exact H.enter (hnew rfl) rfl rfl rfl rfl

theorem Named.restart (H : day.Named) (schedule : List UInt32) (visited : List UInt64)
    (writers : List UInt32) : (day.restart schedule visited writers).Named := by
  have hold : ∀ e ∈ day.published, e ∈ (day.restart schedule visited writers).published :=
    fun e he => List.mem_append_left _ he
  constructor
  · apply Trader.Entries.onRecover ⟨nofun, nofun⟩
    intro r hr hne
    obtain ⟨e, he, hrecord, -⟩ := exists_published_of_recovered hr
    exact (H.orders e he r.order hrecord hne).mono rfl hold
  · intro e he order horder hne
    rcases List.mem_append.mp he with hmem | hlost
    · exact (H.orders e hmem order horder hne).mono rfl hold
    · -- an order that is reported lost has no order ref
      rcases lost_of_mem_recover hlost with
        ⟨order', _, _, _, _, _, hempty, hrecord⟩ | ⟨input, source, hrecord, -, -⟩
      · obtain rfl := Record.order.inj (horder.symm.trans hrecord)
        exact absurd hempty hne
      · obtain rfl := Record.order.inj (horder.symm.trans hrecord)
        exact absurd rfl hne

theorem Named.step (H : day.Named) (s : Step δ) (hdistinct : day.Distinct M s) :
    (day.step M E s).Named := by
  have hpending : ∀ (pending tasks : List (Task δ)) P, day.trader.Entries P →
      ({ day.trader with pending := pending, tasks := tasks } : Trader δ).Entries P :=
    fun _ _ _ h => ⟨h.refs, h.infos⟩
  cases s with
  | callback task => cases task <;> exact H.of_maps rfl rfl (hpending _ _)
  | drainTasks =>
    simp only [Day.step, Trader.drainTasks]
    split
    · exact H.of_maps rfl rfl (hpending _ _)
    · exact H
  | task =>
    change (day.nextTask M E).Named
    unfold Day.nextTask
    split
    · exact H
    · rename_i task pending htask
      simp only [Distinct, htask, List.head?_cons, Option.mem_some_iff, forall_eq'] at hdistinct
      have hbefore : ({ day with trader := { day.trader with pending := pending } } : Day δ).Named :=
        H.of_maps rfl rfl (hpending _ _)
      apply hbefore.perform
      cases task <;> exact hdistinct
  | orderInput input source ret => exact H.orderInput hdistinct
  | missInput input source => exact H.of_maps rfl rfl fun _ h => h
  | orderAction action ret =>
    simp only [Day.step, Trader.cancelOrder]
    split
    · exact H
    · split
      · exact H
      · exact H.of_maps rfl rfl fun _ h => ⟨h.refs, h.infos⟩
  | writeTo dest =>
    simp only [Day.step, Trader.onWriteTo]
    split
    · exact H
    · exact H.of_maps rfl rfl fun _ h => ⟨h.refs, h.infos⟩
  | restart schedule visited writers => exact H.restart schedule visited writers

theorem named_start (writers : List UInt32) : (Day.start writers : Day δ).Named where
  entries := ⟨nofun, nofun⟩
  orders := by
    intro e he
    cases he

end Day

/-- In a run in which ids are distinct, the request to cancel an order addresses it under
the key it was inserted under if and only if the trader still has an entry for its id and is
logged in under the session of its insertion. -/
theorem cancel_addresses_order (M : Markets) (E : Exchange δ) (writers : List UInt32)
    {steps : List (Step δ)}
    (hdistinct : Along (Day.step M E) (Day.Distinct M) (Day.start writers) steps) :
    let day := (Day.start writers).run M E steps
    ∀ p ∈ day.placed, day.trader.isReadyForRequests → ∀ orderActionId ret,
      (∃ request, (day.trader.cancelOrder ⟨p.orderId, orderActionId⟩ ret).2.1 = some request ∧
          request.key = p.key) ↔
        (day.trader.orderIdToRefInfo p.orderId).isSome ∧
          day.trader.frontId = p.key.frontId ∧ day.trader.sessionId = p.key.sessionId := by
  intro day p hp hready orderActionId ret
  have H : day.Named := hdistinct.foldl (fun _ s H h => H.step s h) (Day.named_start writers)
  unfold Trader.cancelOrder
  cases hinfo : day.trader.orderIdToRefInfo p.orderId with
  | none => simp
  | some info =>
    have href : info.orderRef = p.key.orderRef := (H.entries.infos _ info hinfo).2 p hp rfl
    obtain ⟨owner, frontId, sessionId, orderRef⟩ := p
    obtain rfl : info.orderRef = orderRef := href
    simp [hready, InputOrderActionField.key]

/-- The order is reported. -/
def exampleReported : List (Step (Int32 × Int32)) :=
  exampleMorning ++ reports [.onRtnOrder (exampleOrder '3')]

/-- After a restart the order is recovered from its report, and the login gives another session. -/
def exampleRecovered : List (Step (Int32 × Int32)) :=
  exampleReported ++ .restart [] [] [77] :: reports [.onLoginSuccess 1 101, .onSettlementConfirmed]

/-- The order that was reported is cancelled in the session of its insertion; recovered after a
restart it is not addressed, although it has an entry. -/
theorem cancel_addresses_order_reported :
    (∃ request, (((Day.start []).run exampleMarkets exampleExchange exampleReported).trader.cancelOrder
        ⟨5, 1⟩ 0).2.1 = some request ∧ request.key = ⟨1, 100, "1"⟩) ∧
    (((Day.start []).run exampleMarkets exampleExchange exampleRecovered).trader.orderIdToRefInfo
        5).isSome ∧
    ¬ ∃ request, (((Day.start []).run exampleMarkets exampleExchange exampleRecovered).trader.cancelOrder
        ⟨5, 1⟩ 0).2.1 = some request ∧ request.key = ⟨1, 100, "1"⟩ := by
  refine ⟨?_, by decide +kernel, fun haddressed => ?_⟩
  · exact (cancel_addresses_order exampleMarkets exampleExchange [] (by decide +kernel)
      ⟨⟨5, 0, 77⟩, ⟨1, 100, "1"⟩⟩ (by decide +kernel) (by decide +kernel) 1 0).mpr (by decide +kernel)
  · have hsession := (cancel_addresses_order exampleMarkets exampleExchange [] (by decide +kernel)
      ⟨⟨5, 0, 77⟩, ⟨1, 100, "1"⟩⟩ (by decide +kernel) (by decide +kernel) 1 0).mp haddressed
    exact absurd hsession.2.2 (by decide +kernel)

/-- The order is reported, and after a restart another one is inserted. -/
def exampleAfternoon : List (Step (Int32 × Int32)) :=
  exampleRecovered ++
    [.orderInput ⟨6, 0, "au2610", "SHFE", .Future, 510, 510, 1, .Buy, .Limit, (1, 101)⟩ 77 0]

/-- The request to cancel the morning's order addresses the other one. -/
theorem cancel_hits_other_order :
    let day := (Day.start []).run exampleMarkets exampleExchange exampleAfternoon
    ⟨⟨5, 0, 77⟩, ⟨1, 100, "1"⟩⟩ ∈ day.placed ∧ ⟨⟨6, 0, 77⟩, ⟨1, 101, "1"⟩⟩ ∈ day.placed ∧
      (day.trader.cancelOrder ⟨5, 1⟩ 0).2.1.map (·.key) = some ⟨1, 101, "1"⟩ := by
  decide +kernel

end Kungfu.Ctp
