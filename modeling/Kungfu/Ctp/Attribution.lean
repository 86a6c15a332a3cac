import Kungfu.Ctp.Mapping
import Kungfu.Logic.Run

/-!
# Whose order a published record is attributed to

A record about a strategy's order should carry the order's id, an order also its parent's,
and it should be in the strategy's channel.  A record about any other order should carry the
id of none of them.

An order stays attributable from its insertion to the first report that ends it, as long as
the process lives and nothing takes its entries out of the trader's maps.  Orders besides
are found only under the session the trader is logged in under, and they never carry a
parent.
-/

namespace Kungfu.Ctp

open Longfist Logic

variable {δ : Type}

/-- A record carries the ids of the order it is about, in the channel of its strategy; a
record about no order of the trader's carries the id of none. -/
def Published.Attributed (placed : List Placement) (e : Published δ) : Prop :=
  match e.subject with
  | some owner =>
      e.record.orderId = owner.orderId ∧
        (∀ order, e.record = .order order → order.parentId = owner.parentId) ∧
        owner.source ∈ e.dests
  | none => ∀ p ∈ placed, p.orderId ≠ e.record.orderId

def Day.Attributed (day : Day δ) : Prop := ∀ e ∈ day.published, e.Attributed day.placed

/-! ## Safe steps -/

namespace Day

/-- An order whose end the trader has not heard of, with the channel to its strategy open. -/
def Reportable (day : Day δ) (p : Placement) : Prop := p ∈ day.live ∧ p.source ∈ day.trader.writers

/-- An id that no order of the trader's has. -/
def Stray (day : Day δ) (id : UInt64) : Prop := ∀ p ∈ day.placed, p.orderId ≠ id

/-- An id whose entry, if any, has the order ref of no live order. -/
def Unlinked (day : Day δ) (id : UInt64) : Prop :=
  ∀ info ∈ day.trader.orderIdToRefInfo id, ∀ p ∈ day.live, p.key.orderRef ≠ info.orderRef

variable (M : Markets) (E : Exchange δ) (day : Day δ)

/-- The condition on a report about an order: it is about a live order without a parent, of
the session that the trader is logged in under; or about no order of the trader's, and it
leads to none. -/
def SafeOrder (order : OrderField δ) : Prop :=
  match day.placement order.key with
  | some p => day.Reportable p ∧ p.parentId = 0 ∧ day.trader.InSession order
  | none =>
      (day.trader.InSession order → day.trader.refToOrderId order.orderRef = none) ∧
        day.Stray (syntheticOrderId M order)

/-- The condition on a report about a trade. -/
def SafeTrade (trade : TradeField δ) : Prop :=
  match day.placement (E.tradeKey trade) with
  | some p => day.Reportable p
  | none =>
      day.Stray ((day.trader.refToOrderId trade.orderRef).getD (syntheticTradeOrderId M trade))

/-- The condition on a rejection. -/
def SafeRejection (input : InputOrderField δ) : Prop :=
  match day.placement (E.inputKey input) with
  | some p =>
      (day.Reportable p ∧ p.parentId = 0) ∨ day.trader.refToOrderId input.orderRef = none
  | none =>
      ∀ id ∈ day.trader.refToOrderId input.orderRef, day.Stray id ∧ day.Unlinked id

def SafeTask : Task δ → Prop
  | .onRtnOrder order =>
      day.SafeOrder M order ∧
        (day.placement order.key = none → isFinalStatus (orderStatusFromCtp order.orderStatus) →
          day.Unlinked (syntheticOrderId M order))
  | .onQryOrder order _ => day.SafeOrder M order
  | .onRtnTrade trade => day.SafeTrade M E trade
  | .onQryTrade trade _ => day.SafeTrade M E trade
  | .onOrderInsertRejected input _ => day.SafeRejection E input
  | _ => True

/-- The condition on an order input: one that is rejected comes from a strategy whose channel
is open, one that is inserted has an id of its own. -/
def SafeInput (input : OrderInput δ) (source : UInt32) (ret : Int32) : Prop :=
  match (day.trader.insertOrder input source ret).2 with
  | some _ => source ∈ day.trader.writers
  | none =>
      (∀ p ∈ day.live, p.orderId ≠ input.orderId) ∧
        ∀ e ∈ day.published, e.subject = none → e.record.orderId ≠ input.orderId

/-- The condition under which a step keeps every record attributed. -/
def Safe : Step δ → Prop
  | .task =>
      match day.trader.pending with
      | [] => True
      | task :: pending =>
          SafeTask M E { day with trader := { day.trader with pending := pending } } task
  | .orderInput input source ret => day.trader.pending = [] → day.SafeInput input source ret
  | _ => True

instance (p : Placement) : Decidable (day.Reportable p) := inferInstanceAs (Decidable (_ ∧ _))

instance (id : UInt64) : Decidable (day.Stray id) := List.decidableBAll _ _

instance (id : UInt64) : Decidable (day.Unlinked id) :=
  Option.decidableForallMem (p := fun info : OrderRefInfo =>
    ∀ p ∈ day.live, p.key.orderRef ≠ info.orderRef) _

instance (order : OrderField δ) : Decidable (day.SafeOrder M order) :=
  match h : day.placement order.key with
  | some p => decidable_of_iff
      (day.Reportable p ∧ p.parentId = 0 ∧ day.trader.InSession order) (by rw [SafeOrder, h])
  | none => decidable_of_iff
      ((day.trader.InSession order → day.trader.refToOrderId order.orderRef = none) ∧
        day.Stray (syntheticOrderId M order)) (by rw [SafeOrder, h])

instance (trade : TradeField δ) : Decidable (day.SafeTrade M E trade) :=
  match h : day.placement (E.tradeKey trade) with
  | some p => decidable_of_iff (day.Reportable p) (by rw [SafeTrade, h])
  | none => decidable_of_iff
      (day.Stray ((day.trader.refToOrderId trade.orderRef).getD (syntheticTradeOrderId M trade)))
      (by rw [SafeTrade, h])

instance (input : InputOrderField δ) : Decidable (day.SafeRejection E input) :=
  match h : day.placement (E.inputKey input) with
  | some p => decidable_of_iff
      ((day.Reportable p ∧ p.parentId = 0) ∨ day.trader.refToOrderId input.orderRef = none)
      (by rw [SafeRejection, h])
  | none =>
      have : Decidable (∀ id ∈ day.trader.refToOrderId input.orderRef,
          day.Stray id ∧ day.Unlinked id) :=
        Option.decidableForallMem (p := fun id => day.Stray id ∧ day.Unlinked id) _
      decidable_of_iff (∀ id ∈ day.trader.refToOrderId input.orderRef,
        day.Stray id ∧ day.Unlinked id) (by rw [SafeRejection, h])

instance : (task : Task δ) → Decidable (day.SafeTask M E task)
  | .onRtnOrder order => inferInstanceAs (Decidable (day.SafeOrder M order ∧
      (day.placement order.key = none → isFinalStatus (orderStatusFromCtp order.orderStatus) →
        day.Unlinked (syntheticOrderId M order))))
  | .onQryOrder order _ => inferInstanceAs (Decidable (day.SafeOrder M order))
  | .onRtnTrade trade | .onQryTrade trade _ => inferInstanceAs (Decidable (day.SafeTrade M E trade))
  | .onOrderInsertRejected input _ => inferInstanceAs (Decidable (day.SafeRejection E input))
  | .onFrontDisconnected | .onLoginSuccess _ _ | .onLoginFailed | .onSettlementConfirmed =>
      inferInstanceAs (Decidable True)

instance (input : OrderInput δ) (source : UInt32) (ret : Int32) :
    Decidable (day.SafeInput input source ret) :=
  match h : (day.trader.insertOrder input source ret).2 with
  | some _ => decidable_of_iff (source ∈ day.trader.writers) (by rw [SafeInput, h])
  | none => decidable_of_iff ((∀ p ∈ day.live, p.orderId ≠ input.orderId) ∧
      ∀ e ∈ day.published, e.subject = none → e.record.orderId ≠ input.orderId)
      (by rw [SafeInput, h])

instance : (s : Step δ) → Decidable (day.Safe M E s)
  | .task =>
      match h : day.trader.pending with
      | [] => isTrue (by simp only [Safe, h])
      | task :: pending => decidable_of_iff
          (SafeTask M E { day with trader := { day.trader with pending := pending } } task)
          (by simp only [Safe, h])
  | .orderInput input source ret =>
      decidable_of_iff (day.trader.pending.isEmpty → day.SafeInput input source ret)
        (by rw [List.isEmpty_iff]; rfl)
  | .callback _ | .drainTasks | .orderAction _ _ | .missInput _ _ | .writeTo _ | .restart _ _ _ =>
      inferInstanceAs (Decidable True)

end Day

/-! ## What safe steps preserve -/

namespace Day

variable {M : Markets} {E : Exchange δ} {day day' : Day δ}

theorem placement_key {key : OrderKey} {p : Placement} (h : day.placement key = some p) :
    p ∈ day.placed ∧ p.key = key :=
  ⟨List.mem_of_find?_eq_some h, by simpa using List.find?_some h⟩

/-- The live orders are in the maps, each under an order ref of its own. -/
structure Tracked (day : Day δ) : Prop where
  maps : ∀ p ∈ day.live, day.trader.Maps p
  placed : ∀ p ∈ day.live, p ∈ day.placed
  unique : ∀ p ∈ day.live, ∀ q ∈ day.live, p.key.orderRef = q.key.orderRef → p = q
  named : ∀ p ∈ day.placed, p.key.orderRef ≠ ""

/-- An order of a strategy is final or has an order ref, so recovery does not report it lost. -/
def Settled (day : Day δ) : Prop :=
  ∀ e ∈ day.published, e.subject ≠ none → ∀ order, e.record = .order order →
    isFinalStatus order.status ∨ order.externalOrderId ≠ ""

structure Inv (day : Day δ) : Prop where
  tracked : day.Tracked
  attributed : day.Attributed
  settled : day.Settled

theorem Tracked.of_live (H : day.Tracked)
    (hlive : ∀ p ∈ day'.live, p ∈ day.live ∧ day'.trader.Maps p)
    (hplaced : day'.placed = day.placed) : day'.Tracked where
  maps p hp := (hlive p hp).2
  placed p hp := hplaced ▸ H.placed p (hlive p hp).1
  unique p hp q hq := H.unique p (hlive p hp).1 q (hlive q hq).1
  named p hp := H.named p (hplaced ▸ hp)

/-- Two live orders have different ids. -/
theorem Tracked.eq_of_orderId (H : day.Tracked) {p q : Placement} (hp : p ∈ day.live)
    (hq : q ∈ day.live) (h : p.orderId = q.orderId) : p = q := by
  obtain ⟨info, hinfo, href, -⟩ := (H.maps p hp).info
  obtain ⟨info', hinfo', href', -⟩ := (H.maps q hq).info
  rw [h, hinfo'] at hinfo
  obtain rfl := Option.some.inj hinfo
  exact H.unique p hp q hq (href.symm.trans href')

/-- Erasing one live order leaves the others in the maps. -/
theorem Tracked.maps_erase (H : day.Tracked) {p q : Placement} (hp : p ∈ day.live)
    (hq : q ∈ day.live) (hne : p ≠ q) : (day.trader.eraseOrderMapping q.orderId).Maps p := by
  apply (H.maps p hp).eraseOrderMapping
  intro info hinfo
  obtain ⟨info', hinfo', href, -⟩ := (H.maps q hq).info
  rw [hinfo'] at hinfo
  obtain rfl := Option.some.inj hinfo
  refine ⟨fun h => hne (H.eq_of_orderId hp hq h), fun h => hne (H.unique p hp q hq ?_)⟩
  rw [h, href]

theorem Tracked.maps_erase_stray (H : day.Tracked) {p : Placement} (hp : p ∈ day.live) {id : UInt64}
    (hstray : day.Stray id) (hunlinked : day.Unlinked id) :
    (day.trader.eraseOrderMapping id).Maps p := by
  apply (H.maps p hp).eraseOrderMapping
  intro info hinfo
  exact ⟨hstray p (H.placed p hp), hunlinked info hinfo p hp⟩

/-! ### Reports -/

/-- What a report about an order publishes. -/
theorem attributed_order (H : day.Tracked) {order : OrderField δ} (hsafe : day.SafeOrder M order) :
    let kfOrder := day.trader.orderFromCtp M order
    let e : Published δ := ⟨.order kfOrder, (day.placement order.key).map (·.toOwner),
      day.trader.targets (day.trader.resolveOrderSource kfOrder.orderId)⟩
    e.Attributed day.placed ∧ (e.subject ≠ none → kfOrder.externalOrderId ≠ "") := by
  intro kfOrder e
  cases hplacement : day.placement order.key with
  | none =>
    rw [SafeOrder, hplacement] at hsafe
    simp only [e, hplacement, Option.map_none, Published.Attributed, ne_eq, not_true_eq_false,
      IsEmpty.forall_iff, and_true]
    have hid : kfOrder.orderId = syntheticOrderId M order :=
      Trader.orderId_orderFromCtp_of_unmapped M fun hsession => .inl (hsafe.1 hsession)
    intro p hp
    rw [Record.orderId, hid]
    exact hsafe.2 p hp
  | some p =>
    rw [SafeOrder, hplacement] at hsafe
    obtain ⟨⟨hlive, hwriter⟩, hparent, hsession⟩ := hsafe
    obtain ⟨hplaced, hkey⟩ := placement_key hplacement
    have href : p.key.orderRef = order.orderRef := by rw [hkey]; rfl
    have hne : order.orderRef ≠ "" := href ▸ H.named p hplaced
    have hmaps := H.maps p hlive
    have hid : kfOrder.orderId = p.orderId :=
      Trader.orderId_orderFromCtp_of_mapped M hsession hne (href ▸ hmaps.ref)
    simp only [e, hplacement, Option.map_some, Published.Attributed]
    refine ⟨⟨hid, ?_, ?_⟩, fun _ => hne⟩
    · intro order' horder'
      obtain rfl := Record.order.inj horder'
      exact hparent.symm
    · rw [hid, hmaps.resolveOrderSource]
      exact Trader.mem_targets hwriter

/-- What a report about a trade publishes. -/
theorem attributed_trade (H : day.Tracked) {trade : TradeField δ} (hsafe : day.SafeTrade M E trade) :
    let kfTrade := day.trader.tradeFromCtp M trade
    (⟨.trade kfTrade, (day.placement (E.tradeKey trade)).map (·.toOwner),
      day.trader.targets (day.trader.resolveOrderSource kfTrade.orderId)⟩ : Published δ).Attributed
        day.placed := by
  intro kfTrade
  have hid : kfTrade.orderId =
      (day.trader.refToOrderId trade.orderRef).getD (syntheticTradeOrderId M trade) :=
    Trader.orderId_tradeFromCtp M trade
  cases hplacement : day.placement (E.tradeKey trade) with
  | none =>
    rw [SafeTrade, hplacement] at hsafe
    intro p hp
    rw [Record.orderId, hid]
    exact hsafe p hp
  | some p =>
    rw [SafeTrade, hplacement] at hsafe
    obtain ⟨hplaced, hkey⟩ := placement_key hplacement
    have href : p.key.orderRef = trade.orderRef := by rw [hkey, E.tradeKey_orderRef]
    have hmaps := H.maps p hsafe.1
    rw [← href, hmaps.ref, Option.getD_some] at hid
    refine ⟨hid, fun order horder => absurd horder (Record.trade_ne_order _ order), ?_⟩
    rw [hid, hmaps.resolveOrderSource]
    exact Trader.mem_targets hsafe.2

/-- What a task publishes is attributed as it should be, and settled. -/
theorem attributed_task (H : day.Tracked) {task : Task δ} (hsafe : day.SafeTask M E task) :
    ∀ p ∈ (task.perform M day.trader).2,
      (⟨p.record, ((task.subject E).bind day.placement).map (·.toOwner),
        day.trader.targets p.source⟩ : Published δ).Attributed day.placed ∧
      (((task.subject E).bind day.placement).map (·.toOwner) ≠ none →
        ∀ order, p.record = .order order →
          isFinalStatus order.status ∨ order.externalOrderId ≠ "") := by
  intro p hp
  cases task with
  | onFrontDisconnected | onLoginFailed | onSettlementConfirmed => cases hp
  | onLoginSuccess _ _ => cases hp
  | onRtnOrder order =>
    obtain rfl := Option.some.inj hp
    obtain ⟨hattributed, hnamed⟩ := attributed_order H hsafe.1
    refine ⟨hattributed, fun hsubject order' horder' => .inr ?_⟩
    obtain rfl := Record.order.inj horder'
    exact hnamed hsubject
  | onQryOrder order _ =>
    obtain rfl := Option.some.inj hp
    obtain ⟨hattributed, hnamed⟩ := attributed_order H hsafe
    refine ⟨hattributed, fun hsubject order' horder' => .inr ?_⟩
    obtain rfl := Record.order.inj horder'
    exact hnamed hsubject
  | onRtnTrade trade =>
    obtain rfl := Option.some.inj hp
    exact ⟨attributed_trade H hsafe, fun _ order horder => absurd horder (Record.trade_ne_order _ order)⟩
  | onQryTrade trade _ =>
    obtain rfl := Option.some.inj hp
    exact ⟨attributed_trade H hsafe, fun _ order horder => absurd horder (Record.trade_ne_order _ order)⟩
  | onOrderInsertRejected input error =>
    simp only [Task.perform] at hp
    simp only [Task.subject, Option.bind_some]
    cases href : day.trader.refToOrderId input.orderRef with
    | none => rw [href] at hp; cases hp
    | some id =>
      rw [href] at hp
      obtain rfl := Option.some.inj hp
      refine ⟨?_, fun _ order horder => .inl ?_⟩
      · change day.SafeRejection E input at hsafe
        cases hplacement : day.placement (E.inputKey input) with
        | none =>
          rw [SafeRejection, hplacement] at hsafe
          exact (hsafe id href).1
        | some q =>
          rw [SafeRejection, hplacement] at hsafe
          rcases hsafe with ⟨⟨hlive, hwriter⟩, hparent⟩ | hnone
          · have hmaps := H.maps q hlive
            have hkey : q.key.orderRef = input.orderRef := by
              rw [(placement_key hplacement).2, E.inputKey_orderRef]
            obtain rfl : q.orderId = id := Option.some.inj (hmaps.ref.symm.trans (hkey ▸ href))
            refine ⟨rfl, ?_, ?_⟩
            · intro order horder
              obtain rfl := Record.order.inj horder
              exact hparent.symm
            · simp only [hmaps.resolveOrderSource]
              exact Trader.mem_targets hwriter
          · rw [hnone] at href
            cases href
      · obtain rfl := Record.order.inj horder
        rfl

/-! ### Tasks -/

/-- A task leaves the entries of the orders that stay live. -/
theorem maps_perform (H : day.Tracked) {task : Task δ} (hsafe : day.SafeTask M E task)
    {p : Placement} (hp : p ∈ day.live)
    (hlive : task.ends → some p.key ≠ task.subject E) : (task.perform M day.trader).1.Maps p := by
  have hkept : day.trader.Maps p := H.maps p hp
  -- a live order whose report is performed is another one than `p` if the report ends it
  have hother : ∀ q : Placement, task.subject E = some q.key → task.ends → p ≠ q := by
    intro q hsubject hends hpq
    exact hlive hends (by rw [hsubject, hpq])
  cases task with
  | onFrontDisconnected | onLoginFailed | onSettlementConfirmed => exact ⟨hkept.ref, hkept.info⟩
  | onLoginSuccess _ _ => exact ⟨hkept.ref, hkept.info⟩
  | onRtnTrade _ => exact hkept
  | onQryOrder _ isLast | onQryTrade _ isLast =>
    cases isLast <;> exact ⟨hkept.ref, hkept.info⟩
  | onRtnOrder order =>
    obtain ⟨hsafe, hunlinked⟩ := hsafe
    have hstatus : (day.trader.orderFromCtp M order).status = orderStatusFromCtp order.orderStatus :=
      rfl
    simp only [Task.perform, hstatus]
    split
    · rename_i hfinal
      cases hplacement : day.placement order.key with
      | none =>
        rw [SafeOrder, hplacement] at hsafe
        rw [Trader.orderId_orderFromCtp_of_unmapped M fun hsession => .inl (hsafe.1 hsession)]
        exact H.maps_erase_stray hp hsafe.2 (hunlinked hplacement hfinal)
      | some q =>
        rw [SafeOrder, hplacement] at hsafe
        obtain ⟨hplaced, hkey⟩ := placement_key hplacement
        have href : q.key.orderRef = order.orderRef := by rw [hkey]; rfl
        rw [Trader.orderId_orderFromCtp_of_mapped M hsafe.2.2 (href ▸ H.named q hplaced)
          (href ▸ (H.maps q hsafe.1.1).ref)]
        exact H.maps_erase hp hsafe.1.1 (hother q (by rw [hkey]; rfl) hfinal)
    · exact hkept
  | onOrderInsertRejected input error =>
    simp only [Task.perform]
    cases href : day.trader.refToOrderId input.orderRef with
    | none => exact hkept
    | some id =>
      change day.SafeRejection E input at hsafe
      cases hplacement : day.placement (E.inputKey input) with
      | none =>
        rw [SafeRejection, hplacement] at hsafe
        exact H.maps_erase_stray hp (hsafe id href).1 (hsafe id href).2
      | some q =>
        rw [SafeRejection, hplacement] at hsafe
        rcases hsafe with ⟨⟨hq, -⟩, -⟩ | hnone
        · have hkey := (placement_key hplacement).2
          have hkeyref : q.key.orderRef = input.orderRef := by rw [hkey, E.inputKey_orderRef]
          obtain rfl : q.orderId = id :=
            Option.some.inj ((H.maps q hq).ref.symm.trans (hkeyref ▸ href))
          exact H.maps_erase hp hq (hother q (by rw [hkey]; rfl) rfl)
        · rw [hnone] at href
          cases href

theorem live_perform {task : Task δ} {p : Placement} (h : p ∈ (day.perform M E task).live) :
    p ∈ day.live ∧ (task.ends → some p.key ≠ task.subject E) := by
  simp only [Day.perform, live_publish] at h
  split at h
  · obtain ⟨hp, hkey⟩ := List.mem_filter.mp h
    exact ⟨hp, fun _ => of_decide_eq_true hkey⟩
  · rename_i hends
    exact ⟨h, fun h => absurd h hends⟩

theorem Inv.perform (H : day.Inv) {task : Task δ} (hsafe : day.SafeTask M E task) :
    (day.perform M E task).Inv where
  tracked := by
    apply H.tracked.of_live
    · intro p hp
      obtain ⟨hlive, hkey⟩ := live_perform hp
      exact ⟨hlive, maps_perform H.tracked hsafe hlive hkey⟩
    · exact placed_publish _ _ day
  attributed := by
    intro e he
    have hplaced : (day.perform M E task).placed = day.placed := placed_publish _ _ day
    rw [hplaced]
    rcases (mem_published_publish _ _ day).mp he with hold | ⟨p, hp, rfl⟩
    · exact H.attributed e hold
    · exact (attributed_task H.tracked hsafe p hp).1
  settled := by
    intro e he
    rcases (mem_published_publish _ _ day).mp he with hold | ⟨p, hp, rfl⟩
    · exact H.settled e hold
    · exact (attributed_task H.tracked hsafe p hp).2

/-! ### Order inputs -/

theorem Tracked.of_maps (H : day.Tracked) (hplaced : day'.placed = day.placed)
    (hlive : day'.live = day.live) (hmaps : ∀ p, day.trader.Maps p → day'.trader.Maps p) :
    day'.Tracked := by
  apply H.of_live _ hplaced
  intro p hp
  rw [hlive] at hp
  exact ⟨hp, hmaps p (H.maps p hp)⟩

/-- An inserted order is live from now on. -/
theorem Tracked.enter (H : day.Tracked) {input : OrderInput δ} {source : UInt32}
    (hnew : ∀ p ∈ day.live, p.orderId ≠ input.orderId) {key : OrderKey}
    (hkey : key.orderRef = toString (day.trader.orderRefCounter + 1))
    (hplaced : day'.placed = ⟨Owner.ofInput input source, key⟩ :: day.placed)
    (hlive : day'.live = ⟨Owner.ofInput input source, key⟩ ::
      day.live.filter fun p => p.key.orderRef ≠ key.orderRef)
    (htrader : day'.trader = day.trader.enter input source) : day'.Tracked := by
  have hcases : ∀ p ∈ day'.live, p = ⟨Owner.ofInput input source, key⟩ ∨
      (p ∈ day.live ∧ p.key.orderRef ≠ key.orderRef) := by
    intro p hp
    rw [hlive, List.mem_cons, List.mem_filter, decide_eq_true_eq] at hp
    exact hp
  constructor
  · intro p hp
    rw [htrader]
    rcases hcases p hp with rfl | ⟨hp, href⟩
    · exact Trader.maps_enter day.trader input source key hkey
    · exact (H.maps p hp).enter (hnew p hp) (hkey ▸ href)
  · intro p hp
    rw [hplaced]
    rcases hcases p hp with rfl | ⟨hp, -⟩
    · exact List.mem_cons_self
    · exact List.mem_cons_of_mem _ (H.placed p hp)
  · intro p hp q hq hsame
    rcases hcases p hp with rfl | ⟨hp, hpref⟩ <;> rcases hcases q hq with rfl | ⟨hq, hqref⟩
    · rfl
    · exact absurd hsame.symm hqref
    · exact absurd hsame hpref
    · exact H.unique p hp q hq hsame
  · intro p hp
    rcases List.mem_cons.mp (hplaced ▸ hp) with rfl | hp
    · rw [hkey]
      exact Nat.repr_ne_empty
    · exact H.named p hp

theorem Inv.orderInput (H : day.Inv) {input : OrderInput δ} {source : UInt32} {ret : Int32}
    (hsafe : day.trader.pending = [] → day.SafeInput input source ret) :
    (day.orderInput input source ret).Inv := by
  unfold Day.orderInput
  split
  · exact H
  · rename_i hpending
    have hsafe := hsafe hpending
    unfold SafeInput at hsafe
    rcases Trader.insertOrder_cases input source ret day.trader with
      ⟨counter, order, hinsert, -, hid, hparent, -, hfinal⟩ | hinsert
    · rw [hinsert] at hsafe ⊢
      refine ⟨H.tracked.of_maps rfl rfl fun p h => ⟨h.ref, h.info⟩, ?_, ?_⟩
      · intro e he
        rcases List.mem_append.mp he with hold | hnew
        · exact H.attributed e hold
        · obtain rfl := List.mem_singleton.mp hnew
          refine ⟨hid, ?_, Trader.mem_targets hsafe⟩
          intro order' horder'
          obtain rfl := Record.order.inj horder'
          exact hparent
      · intro e he
        rcases List.mem_append.mp he with hold | hnew
        · exact H.settled e hold
        · obtain rfl := List.mem_singleton.mp hnew
          intro _ order' horder'
          obtain rfl := Record.order.inj horder'
          exact .inl hfinal
    · rw [hinsert] at hsafe ⊢
      refine ⟨H.tracked.enter hsafe.1 rfl rfl rfl rfl, ?_, H.settled⟩
      intro e he
      have hold := H.attributed e he
      unfold Published.Attributed at hold ⊢
      split
      · rename_i owner howner
        rwa [howner] at hold
      · rename_i hnone
        rw [hnone] at hold
        intro p hp
        rcases List.mem_cons.mp hp with rfl | hp
        · exact fun h => hsafe.2 e he hnone h.symm
        · exact hold p hp

/-! ### Restarts -/

theorem Inv.restart (H : day.Inv) (schedule : List UInt32) (visited : List UInt64)
    (writers : List UInt32) : (day.restart schedule visited writers).Inv := by
  constructor
  · refine H.tracked.of_live (fun p hp => ?_) rfl
    obtain ⟨hlive, hmaps⟩ := List.mem_filter.mp hp
    exact ⟨hlive, of_decide_eq_true hmaps⟩
  · intro e he
    rcases List.mem_append.mp he with hold | hlost
    · exact H.attributed e hold
    · rcases lost_of_mem_recover hlost with
        ⟨order, e', he', hrecord, hsubject, hopen, hnamed, hlost⟩ |
        ⟨input, source, hrecord, hsubject, hdests⟩
      · -- an order of a strategy is never reported lost from `orders_`
        cases howner : e.subject with
        | some owner =>
          have hsettled := H.settled e' he' (by rw [hsubject, howner]; nofun) order hrecord
          exact absurd hsettled (not_or.mpr ⟨hopen, not_not.mpr hnamed⟩)
        | none =>
          have hold := H.attributed e' he'
          rw [Published.Attributed, hsubject, howner, hrecord] at hold
          rw [Published.Attributed, howner, hlost]
          exact hold
      · rw [Published.Attributed, hsubject, hrecord, hdests]
        refine ⟨rfl, ?_, List.mem_singleton_self source⟩
        intro order horder
        obtain rfl := Record.order.inj horder
        rfl
  · intro e he
    rcases List.mem_append.mp he with hold | hlost
    · exact H.settled e hold
    · intro _ order horder
      rcases lost_of_mem_recover hlost with ⟨_, _, _, _, _, _, _, hrecord⟩ | ⟨_, _, hrecord, _, _⟩
      all_goals
        rw [hrecord] at horder
        obtain rfl := Record.order.inj horder
        exact .inl rfl

/-! ### Steps -/

theorem Inv.of_maps (H : day.Inv) (hplaced : day'.placed = day.placed)
    (hlive : day'.live = day.live) (hpublished : day'.published = day.published)
    (hmaps : ∀ p, day.trader.Maps p → day'.trader.Maps p) : day'.Inv where
  tracked := H.tracked.of_maps hplaced hlive hmaps
  attributed e he := hplaced ▸ H.attributed e (hpublished ▸ he)
  settled e he := H.settled e (hpublished ▸ he)

theorem Inv.step (H : day.Inv) (s : Step δ) (hsafe : day.Safe M E s) : (day.step M E s).Inv := by
  cases s with
  | callback task =>
    cases task <;> exact H.of_maps rfl rfl rfl fun p h => ⟨h.ref, h.info⟩
  | drainTasks =>
    simp only [Day.step, Trader.drainTasks]
    split
    · exact H.of_maps rfl rfl rfl fun p h => ⟨h.ref, h.info⟩
    · exact H
  | task =>
    change (day.nextTask M E).Inv
    unfold Day.nextTask
    simp only [Safe] at hsafe
    split
    · exact H
    · rename_i task pending hpending
      rw [hpending] at hsafe
      have hbefore : ({ day with trader := { day.trader with pending := pending } } : Day δ).Inv :=
        H.of_maps rfl rfl rfl fun p h => ⟨h.ref, h.info⟩
      exact hbefore.perform hsafe
  | orderInput input source ret => exact H.orderInput hsafe
  | missInput input source => exact H.of_maps rfl rfl rfl fun _ h => h
  | orderAction action ret =>
    simp only [Day.step, Trader.cancelOrder]
    split
    · exact H
    · split
      · exact H
      · exact H.of_maps rfl rfl rfl fun p h => ⟨h.ref, h.info⟩
  | writeTo dest =>
    simp only [Day.step, Trader.onWriteTo]
    split
    · exact H
    · exact H.of_maps rfl rfl rfl fun p h => ⟨h.ref, h.info⟩
  | restart schedule visited writers => exact H.restart schedule visited writers

theorem inv_start (writers : List UInt32) : (Day.start writers : Day δ).Inv where
  tracked := ⟨nofun, nofun, nofun, nofun⟩
  attributed := by
    intro e he
    cases he
  settled := by
    intro e he
    cases he

end Day

/-- In a run whose steps are safe, every order and every trade that was published carries the
ids of its order, in the channel of the strategy that placed it. -/
theorem attributed_of_safe (M : Markets) (E : Exchange δ) (writers : List UInt32)
    {steps : List (Step δ)}
    (hsafe : Along (Day.step M E) (Day.Safe M E) (Day.start writers) steps) :
    ((Day.start writers).run M E steps).Attributed :=
  (hsafe.foldl (fun _ s H h => H.step s h) (Day.inv_start writers)).attributed

/-! ## Two days -/

def exampleTrade : TradeField (Int32 × Int32) :=
  ⟨"1", "8", "9", "au2610", "SHFE", '0', 3, (1, 100)⟩

/-- The order is accepted and traded, an order of session 200 is traded too, and the order is
final; then the process is restarted. -/
def exampleDay : List (Step (Int32 × Int32)) :=
  exampleMorning ++
    reports [.onRtnOrder (exampleOrder '3'), .onRtnTrade exampleTrade,
      .onRtnTrade ⟨"2", "7", "10", "au2610", "SHFE", '1', 1, (1, 200)⟩,
      .onRtnOrder (exampleOrder '0')] ++ [.restart [] [] [77]]

/-- Every record of the day is attributed as it should be. -/
theorem attributed_of_safe_example :
    let day := (Day.start []).run exampleMarkets exampleExchange exampleDay
    day.Attributed ∧ day.published.map (fun e => (e.record.orderId, e.dests)) =
      [(5, [77, PUBLIC]), (5, [77, PUBLIC]), (stableHash64 "syssid|SHFE|7", [PUBLIC]),
        (5, [77, PUBLIC])] :=
  ⟨attributed_of_safe exampleMarkets exampleExchange [] (by decide +kernel), by decide +kernel⟩

/-- The final order is reported before the trade, so the trade gets an id that no order has,
and the strategy does not hear of it. -/
theorem fill_after_final_not_attributed :
    let day := (Day.start []).run exampleMarkets exampleExchange
      (exampleMorning ++ reports [.onRtnOrder (exampleOrder '0'), .onRtnTrade exampleTrade])
    ¬ day.Attributed ∧ day.published.map (fun e => (e.record.orderId, e.dests)) =
      [(5, [77, PUBLIC]), (stableHash64 "syssid|SHFE|8", [PUBLIC])] := by
  intro day
  refine ⟨?_, by decide +kernel⟩
  intro H
  have hfill : ∃ e ∈ day.published, e.subject = some ⟨5, 0, 77⟩ ∧ 77 ∉ e.dests := by decide +kernel
  obtain ⟨e, he, hsubject, hdests⟩ := hfill
  have hattributed := H e he
  rw [Published.Attributed, hsubject] at hattributed
  exact hdests hattributed.2.2

end Kungfu.Ctp
