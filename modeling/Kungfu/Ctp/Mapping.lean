import Kungfu.Ctp.Day

/-!
# What the trader does to its maps

`ref_to_order_id_` and `order_id_to_ref_info_` change in three ways: an inserted order is
entered, an order at its end is erased, and recovery enters the orders of earlier processes.
Each operation has one lemma that says all it can do; the results about reports and about
cancels go by these.
-/

namespace Kungfu.Ctp

open Longfist

variable {δ : Type} {t : Trader δ}

/-- The id that an order gets whose order ref leads to none. -/
def syntheticOrderId (M : Markets) (order : OrderField δ) : UInt64 :=
  let exchangeId := M.resolveExchangeId order.exchangeId order.instrumentId
  if order.orderSysId ≠ "" ∧ order.orderSysId ≠ "0" then
    stableHash64 s!"syssid|{exchangeId}|{order.orderSysId}"
  else stableHash64 s!"ref|{order.frontId}|{order.sessionId}|{order.orderRef}"

/-- The order id that a trade gets whose order ref leads to none. -/
def syntheticTradeOrderId (M : Markets) (trade : TradeField δ) : UInt64 :=
  let exchangeId := M.resolveExchangeId trade.exchangeId trade.instrumentId
  if trade.orderSysId ≠ "" ∧ trade.orderSysId ≠ "0" then
    stableHash64 s!"syssid|{exchangeId}|{trade.orderSysId}"
  else stableHash64 s!"trade|{exchangeId}|{trade.tradeId}"

namespace Trader

/-- The session of an order is the one that the trader knows of. -/
def InSession (t : Trader δ) (order : OrderField δ) : Prop :=
  order.frontId = t.frontId ∧ order.sessionId = t.sessionId

instance (order : OrderField δ) : Decidable (t.InSession order) :=
  inferInstanceAs (Decidable (_ ∧ _))

/-! ## Resolving -/

theorem orderId_orderFromCtp_of_mapped (M : Markets) {order : OrderField δ}
    (hsession : t.InSession order) (hne : order.orderRef ≠ "") {id : UInt64}
    (h : t.refToOrderId order.orderRef = some id) : (t.orderFromCtp M order).orderId = id := by
  simp [orderFromCtp, resolveOrderId, hsession.1, hsession.2, hne, h]

theorem orderId_orderFromCtp_of_unmapped (M : Markets) {order : OrderField δ}
    (h : t.InSession order → t.refToOrderId order.orderRef = none ∨ order.orderRef = "") :
    (t.orderFromCtp M order).orderId = syntheticOrderId M order := by
  have hmapped : (if order.frontId = t.frontId ∧ order.sessionId = t.sessionId ∧ order.orderRef ≠ ""
      then t.refToOrderId order.orderRef else none) = none := by
    split
    · rename_i hsession
      exact (h ⟨hsession.1, hsession.2.1⟩).resolve_right hsession.2.2
    · rfl
  simp only [orderFromCtp, resolveOrderId, hmapped]
  rfl

/-- The id of an order is one that its order ref leads to, or a synthetic one. -/
theorem orderId_orderFromCtp (M : Markets) (order : OrderField δ) :
    t.refToOrderId order.orderRef = some (t.orderFromCtp M order).orderId ∨
      ((t.InSession order → t.refToOrderId order.orderRef = none ∨ order.orderRef = "") ∧
        (t.orderFromCtp M order).orderId = syntheticOrderId M order) := by
  by_cases hmapped : t.InSession order ∧ order.orderRef ≠ "" ∧
      (t.refToOrderId order.orderRef).isSome
  · obtain ⟨hsession, hne, hsome⟩ := hmapped
    obtain ⟨id, hid⟩ := Option.isSome_iff_exists.mp hsome
    left
    rw [orderId_orderFromCtp_of_mapped M hsession hne hid]
    exact hid
  · right
    have hnone : t.InSession order → t.refToOrderId order.orderRef = none ∨ order.orderRef = "" := by
      intro hsession
      rcases eq_or_ne order.orderRef "" with h | hne
      · exact .inr h
      · left
        cases href : t.refToOrderId order.orderRef with
        | none => rfl
        | some id => exact absurd ⟨hsession, hne, by rw [href]; rfl⟩ hmapped
    exact ⟨hnone, orderId_orderFromCtp_of_unmapped M hnone⟩

theorem orderId_tradeFromCtp (M : Markets) (trade : TradeField δ) :
    (t.tradeFromCtp M trade).orderId =
      (t.refToOrderId trade.orderRef).getD (syntheticTradeOrderId M trade) := by
  cases h : t.refToOrderId trade.orderRef <;> simp only [tradeFromCtp, h] <;> rfl

theorem Maps.resolveOrderSource {p : Placement} (H : t.Maps p) :
    t.resolveOrderSource p.orderId = p.source := by
  obtain ⟨info, hinfo, -, hsource⟩ := H.info
  simp only [Trader.resolveOrderSource, hinfo, hsource]
  split
  · rfl
  · rename_i hzero
    exact (not_not.mp hzero).symm

theorem mem_targets {source : UInt32} (h : source ∈ t.writers) : source ∈ t.targets source := by
  rcases eq_or_ne source PUBLIC with rfl | hne
  · simp [targets]
  · simp [targets, hne, h]

/-! ## Entering and erasing -/

/-- The trader after an order was inserted. -/
def enter (input : OrderInput δ) (source : UInt32) (t : Trader δ) : Trader δ :=
  let orderRef := toString (t.orderRefCounter + 1)
  { t with
    orderRefCounter := t.orderRefCounter + 1
    orderIdToRefInfo := Function.update t.orderIdToRefInfo input.orderId
      (some ⟨orderRef, input.instrumentId, input.exchangeId, source⟩)
    refToOrderId := Function.update t.refToOrderId orderRef (some input.orderId) }

/-- An order input is rejected with an order of its own id, or its order is entered. -/
theorem insertOrder_cases (input : OrderInput δ) (source : UInt32) (ret : Int32) (t : Trader δ) :
    (∃ counter order, t.insertOrder input source ret =
        ({ t with orderRefCounter := counter }, some ⟨.order order, source⟩) ∧
      (counter = t.orderRefCounter ∨ counter = t.orderRefCounter + 1) ∧
      order.orderId = input.orderId ∧ order.parentId = input.parentId ∧
      order.externalOrderId = "" ∧ isFinalStatus order.status) ∨
    t.insertOrder input source ret = (t.enter input source, none) := by
  unfold insertOrder
  split_ifs
  · exact .inl ⟨_, _, rfl, .inl rfl, rfl, rfl, rfl, rfl⟩
  · exact .inl ⟨_, _, rfl, .inl rfl, rfl, rfl, rfl, rfl⟩
  · exact .inl ⟨_, _, rfl, .inl rfl, rfl, rfl, rfl, rfl⟩
  · exact .inl ⟨_, _, rfl, .inr rfl, rfl, rfl, rfl, rfl⟩
  · exact .inr rfl
  · exact .inl ⟨_, _, rfl, .inl rfl, rfl, rfl, rfl, rfl⟩

theorem Maps.enter {p : Placement} (H : t.Maps p) {input : OrderInput δ} {source : UInt32}
    (hid : p.orderId ≠ input.orderId) (href : p.key.orderRef ≠ toString (t.orderRefCounter + 1)) :
    (t.enter input source).Maps p where
  ref := by simp only [Trader.enter, Function.update_of_ne href, H.ref]
  info := by simpa only [Trader.enter, Function.update_of_ne hid] using H.info

theorem maps_enter (t : Trader δ) (input : OrderInput δ) (source : UInt32) (key : OrderKey)
    (hkey : key.orderRef = toString (t.orderRefCounter + 1)) :
    (t.enter input source).Maps ⟨Owner.ofInput input source, key⟩ where
  ref := by simp [Trader.enter, hkey, Owner.ofInput]
  info := by simp [Trader.enter, hkey, Owner.ofInput]

/-- Erasing an order leaves the entries of an order with another id and another ref. -/
theorem Maps.eraseOrderMapping {p : Placement} (H : t.Maps p) {id : UInt64}
    (h : ∀ info, t.orderIdToRefInfo id = some info → p.orderId ≠ id ∧ p.key.orderRef ≠ info.orderRef) :
    (t.eraseOrderMapping id).Maps p := by
  unfold Trader.eraseOrderMapping
  split
  · rename_i info hinfo
    obtain ⟨hid, href⟩ := h info hinfo
    exact ⟨by simp only [Function.update_of_ne href, H.ref],
      by simpa only [Function.update_of_ne hid] using H.info⟩
  · exact H

/-! ## What all entries have in common -/

/-- Every entry of the two maps joins an order ref and an order id that `P` relates. -/
structure Entries (t : Trader δ) (P : String → UInt64 → Prop) : Prop where
  refs : ∀ orderRef id, t.refToOrderId orderRef = some id → P orderRef id
  infos : ∀ id info, t.orderIdToRefInfo id = some info → P info.orderRef id

variable {P : String → UInt64 → Prop}

theorem Entries.mono {Q : String → UInt64 → Prop} (H : t.Entries P)
    (h : ∀ orderRef id, P orderRef id → Q orderRef id) : t.Entries Q where
  refs orderRef id hid := h _ _ (H.refs orderRef id hid)
  infos id info hinfo := h _ _ (H.infos id info hinfo)

/-- An entry is made for one order ref and one order id. -/
theorem Entries.update (H : t.Entries P) {id : UInt64} {info : OrderRefInfo}
    (h : P info.orderRef id) {t' : Trader δ}
    (hrefs : t'.refToOrderId = Function.update t.refToOrderId info.orderRef (some id))
    (hinfos : t'.orderIdToRefInfo = Function.update t.orderIdToRefInfo id (some info)) :
    t'.Entries P where
  refs orderRef id' hid := by
    rw [hrefs] at hid
    rcases eq_or_ne orderRef info.orderRef with rfl | hne
    · rw [Function.update_self] at hid
      exact Option.some.inj hid ▸ h
    · rw [Function.update_of_ne hne] at hid
      exact H.refs orderRef id' hid
  infos id' info' hinfo := by
    rw [hinfos] at hinfo
    rcases eq_or_ne id' id with rfl | hne
    · rw [Function.update_self] at hinfo
      exact Option.some.inj hinfo ▸ h
    · rw [Function.update_of_ne hne] at hinfo
      exact H.infos id' info' hinfo

theorem Entries.eraseOrderMapping (H : t.Entries P) (id : UInt64) :
    (t.eraseOrderMapping id).Entries P := by
  unfold Trader.eraseOrderMapping
  split
  · rename_i info _
    constructor
    · intro orderRef id' hid
      rcases eq_or_ne orderRef info.orderRef with rfl | hne
      · simp at hid
      · exact H.refs orderRef id' (by simpa only [Function.update_of_ne hne] using hid)
    · intro id' info' hinfo
      rcases eq_or_ne id' id with rfl | hne
      · simp at hinfo
      · exact H.infos id' info' (by simpa only [Function.update_of_ne hne] using hinfo)
  · exact H

theorem Entries.perform (H : t.Entries P) (M : Markets) (task : Task δ) :
    (task.perform M t).1.Entries P := by
  cases task with
  | onRtnOrder order =>
    simp only [Task.perform]
    split
    · exact H.eraseOrderMapping _
    · exact H
  | onOrderInsertRejected input error =>
    simp only [Task.perform]
    split
    · exact H
    · exact H.eraseOrderMapping _
  | onQryOrder _ isLast | onQryTrade _ isLast => cases isLast <;> exact ⟨H.refs, H.infos⟩
  | _ => exact ⟨H.refs, H.infos⟩

/-- Recovery makes entries for orders that have an order ref. -/
theorem Entries.onRecover (H : t.Entries P) {visited : List UInt64}
    {read : List (UInt32 × Published δ)}
    (h : ∀ r ∈ (visitOrder visited read).filterMap (recoverOrders read),
      r.order.externalOrderId ≠ "" → P r.order.externalOrderId r.order.orderId) :
    (t.onRecover visited read).Entries P := by
  refine List.foldlRecOn (motive := fun t : Trader δ => t.Entries P) _ _ H ?_
  intro t H r hr
  simp only [recoverMapping]
  split_ifs with hempty
  · exact H
  · exact H
  · exact H.update (h r hr hempty) rfl rfl

end Trader

end Kungfu.Ctp
