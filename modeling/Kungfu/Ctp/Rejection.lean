import Kungfu.Ctp.Mapping
import Kungfu.Wingchun.Unreleased

/-!
# Rejected orders

An order that CTP rejects is reported as an order in error of which nothing is left.  The books give
back what an order has left, so they keep frozen what the order input froze.
-/

namespace Kungfu.Ctp

open Longfist Logic Wingchun

variable {δ : Type} {id : UInt64} {ref : String}

/-! ## What is published of an order -/

/-- A record that does not end an order. -/
def Unfinished : Record δ → Prop
  | .order order => ¬ isFinalStatus order.status
  | .trade _ => False

/-- An order in error of which nothing is left. -/
def SpentError : Record δ → Prop
  | .order order => order.status = .Error ∧ order.volumeLeft = 0
  | .trade _ => False

/-- An order in error. -/
def InError : Record δ → Prop
  | .order order => order.status = .Error
  | .trade _ => False

instance : DecidablePred (InError : Record δ → Prop)
  | .order order => inferInstanceAs (Decidable (order.status = .Error))
  | .trade _ => isFalse fun h => h

theorem Unfinished.not_inError {r : Record δ} (h : Unfinished r) : ¬ InError r := by
  cases r with
  | order order =>
      intro herror
      exact h (by rw [show order.status = .Error from herror]; rfl)
  | trade _ => exact h.elim

/-- CTP reports no order to be in error. -/
theorem orderStatusFromCtp_ne_error (c : Char) : orderStatusFromCtp c ≠ .Error := by
  unfold orderStatusFromCtp
  split <;> decide

namespace Trader

variable {M : Markets} {t t' : Trader δ}

/-- Reports may lead to an order id. -/
def Mapped (id : UInt64) (t : Trader δ) : Prop := ∃ ref, t.refToOrderId ref = some id

/-- An order id is led to by one order ref at most, which its entry has. -/
structure Named (id : UInt64) (ref : String) (t : Trader δ) : Prop where
  refs : ∀ orderRef, t.refToOrderId orderRef = some id → orderRef = ref
  info : t.refToOrderId ref = some id → ∃ info, t.orderIdToRefInfo id = some info ∧
    info.orderRef = ref

/-- The entries of an order id are left alone, unless an order ref leads to another one. -/
structure Aside (id : UInt64) (t t' : Trader δ) : Prop where
  refs : ∀ orderRef, t'.refToOrderId orderRef = some id → t.refToOrderId orderRef = some id
  info : t'.orderIdToRefInfo id = t.orderIdToRefInfo id

theorem Aside.named (h : Aside id t t') (hnamed : t.Named id ref) : t'.Named id ref where
  refs orderRef hid := hnamed.refs orderRef (h.refs orderRef hid)
  info hid := by
    rw [h.info]
    exact hnamed.info (h.refs ref hid)

theorem Aside.mapped (h : Aside id t t') (hmapped : t'.Mapped id) : t.Mapped id :=
  hmapped.imp h.refs

/-- An order id that nothing leads to is named by anything. -/
theorem named_of_not_mapped (h : ¬ t.Mapped id) : t.Named id ref where
  refs orderRef hid := absurd ⟨orderRef, hid⟩ h
  info hid := absurd ⟨ref, hid⟩ h

theorem aside_eraseOrderMapping {orderId : UInt64} (h : orderId ≠ id) :
    Aside id t (t.eraseOrderMapping orderId) := by
  unfold eraseOrderMapping
  split
  · refine ⟨fun orderRef hid => ?_, Function.update_of_ne h.symm ..⟩
    simp only [Function.update_apply] at hid
    split at hid
    · cases hid
    · exact hid
  · exact ⟨fun _ hid => hid, rfl⟩

/-- An order whose mapping is erased is led to no more. -/
theorem Named.not_mapped_eraseOrderMapping (h : t.Named id ref) :
    ¬ (t.eraseOrderMapping id).Mapped id := by
  rintro ⟨orderRef, hid⟩
  unfold eraseOrderMapping at hid
  split at hid
  · rename_i info hinfo
    simp only [Function.update_apply] at hid
    split at hid
    · cases hid
    · rename_i hne
      cases h.refs orderRef hid
      obtain ⟨info', hinfo', href⟩ := h.info hid
      rw [hinfo] at hinfo'
      cases hinfo'
      exact hne href.symm
  · rename_i hnone
    cases h.refs orderRef hid
    obtain ⟨info, hinfo, -⟩ := h.info hid
    rw [hnone] at hinfo
    cases hinfo

theorem aside_enter {input : OrderInput δ} {source : UInt32} (h : input.orderId ≠ id) :
    Aside id t (t.enter input source) := by
  refine ⟨fun orderRef hid => ?_, Function.update_of_ne h.symm ..⟩
  simp only [enter, Function.update_apply] at hid
  split at hid
  · exact absurd (Option.some.inj hid) h
  · exact hid

/-- An order that is entered under a new id is named by its order ref. -/
theorem named_enter {input : OrderInput δ} {source : UInt32} (h : ¬ t.Mapped input.orderId) :
    (t.enter input source).Named input.orderId (toString (t.orderRefCounter + 1)) := by
  refine ⟨fun orderRef hid => ?_, fun _ => ⟨_, Function.update_self .., rfl⟩⟩
  by_contra hne
  simp only [enter, Function.update_of_ne hne] at hid
  exact h ⟨orderRef, hid⟩

/-! ### Tasks -/

/-- A callback that tells nothing of an order but what CTP reports of it: no other order is taken
for it, none of it was traded, and no query finds it at its end. -/
def ApartTask (M : Markets) (id : UInt64) (t : Trader δ) : Task δ → Prop
  | .onRtnOrder order => syntheticOrderId M order ≠ id
  | .onQryOrder order _ =>
      syntheticOrderId M order ≠ id ∧ (isFinalStatus (orderStatusFromCtp order.orderStatus) →
        (t.orderFromCtp M order).orderId ≠ id)
  | .onRtnTrade trade | .onQryTrade trade _ => (t.tradeFromCtp M trade).orderId ≠ id
  | _ => True

instance (M : Markets) (id : UInt64) (t : Trader δ) :
    (task : Task δ) → Decidable (t.ApartTask M id task)
  | .onRtnOrder order => inferInstanceAs (Decidable (syntheticOrderId M order ≠ id))
  | .onQryOrder order _ => inferInstanceAs (Decidable (syntheticOrderId M order ≠ id ∧
      (isFinalStatus (orderStatusFromCtp order.orderStatus) → (t.orderFromCtp M order).orderId ≠ id)))
  | .onRtnTrade trade | .onQryTrade trade _ =>
      inferInstanceAs (Decidable ((t.tradeFromCtp M trade).orderId ≠ id))
  | .onFrontDisconnected | .onLoginSuccess _ _ | .onLoginFailed | .onSettlementConfirmed
  | .onOrderInsertRejected _ _ => isTrue trivial

/-- What a task does to an order: it tells that the order is not over, or it ends it. -/
structure Told (M : Markets) (id : UInt64) (t : Trader δ) (task : Task δ) : Prop where
  mapped : ∀ p ∈ (task.perform M t).2, p.record.orderId = id → t.Mapped id
  told : Aside id t (task.perform M t).1 ∧
      (∀ p ∈ (task.perform M t).2, p.record.orderId = id → Unfinished p.record) ∨
    ¬ (task.perform M t).1.Mapped id ∧
      ((∀ p ∈ (task.perform M t).2, p.record.orderId = id → SpentError p.record) ∨
        ∀ p ∈ (task.perform M t).2, p.record.orderId = id → ¬ InError p.record)

/-- A task that tells nothing of the order. -/
theorem told_of_silent {task : Task δ} (haside : Aside id t (task.perform M t).1)
    (h : ∀ p ∈ (task.perform M t).2, p.record.orderId ≠ id) : Told M id t task where
  mapped p hp hid := absurd hid (h p hp)
  told := .inl ⟨haside, fun p hp hid => absurd hid (h p hp)⟩

theorem mapped_of_orderFromCtp {order : OrderField δ} (h : syntheticOrderId M order ≠ id)
    (hid : (t.orderFromCtp M order).orderId = id) : t.Mapped id := by
  rcases orderId_orderFromCtp M order with href | ⟨-, hsynthetic⟩
  · exact ⟨order.orderRef, hid ▸ href⟩
  · exact absurd (hsynthetic.symm.trans hid) h

theorem aside_finishInFlightQuery : Aside id t t.finishInFlightQuery := ⟨fun _ hid => hid, rfl⟩

theorem Aside.refl (id : UInt64) (t : Trader δ) : Aside id t t := ⟨fun _ hid => hid, rfl⟩

theorem told_of_apart (hnamed : t.Named id ref) {task : Task δ} (h : t.ApartTask M id task) :
    Told M id t task := by
  cases task with
  | onRtnOrder order =>
      have hstatus : (t.orderFromCtp M order).status = orderStatusFromCtp order.orderStatus := rfl
      have hmapped : ∀ p ∈ ((Task.onRtnOrder order).perform M t).2, p.record.orderId = id →
          t.Mapped id := by
        rintro _ ⟨⟩ hid
        exact mapped_of_orderFromCtp h hid
      refine ⟨hmapped, ?_⟩
      by_cases hfinal : isFinalStatus (t.orderFromCtp M order).status
      · simp only [Task.perform, hfinal, if_true]
        by_cases hid : (t.orderFromCtp M order).orderId = id
        · right
          rw [hid]
          refine ⟨hnamed.not_mapped_eraseOrderMapping, .inr ?_⟩
          rintro _ ⟨⟩ -
          exact orderStatusFromCtp_ne_error _
        · left
          refine ⟨aside_eraseOrderMapping hid, ?_⟩
          rintro _ ⟨⟩ heq
          exact absurd heq hid
      · simp only [Task.perform, hfinal, Bool.false_eq_true, if_false]
        refine .inl ⟨Aside.refl id t, ?_⟩
        rintro _ ⟨⟩ -
        exact hfinal
  | onQryOrder order isLast =>
      obtain ⟨hsynthetic, hopen⟩ := h
      have haside : Aside id t ((Task.onQryOrder order isLast).perform M t).1 := by
        cases isLast
        · exact Aside.refl id t
        · exact aside_finishInFlightQuery
      refine ⟨?_, .inl ⟨haside, ?_⟩⟩
      · rintro _ ⟨⟩ hid
        exact mapped_of_orderFromCtp hsynthetic hid
      · rintro _ ⟨⟩ hid hfinal
        exact hopen hfinal hid
  | onRtnTrade trade =>
      refine told_of_silent (Aside.refl id t) ?_
      rintro _ ⟨⟩
      exact h
  | onQryTrade trade isLast =>
      have haside : Aside id t ((Task.onQryTrade trade isLast).perform M t).1 := by
        cases isLast
        · exact Aside.refl id t
        · exact aside_finishInFlightQuery
      refine told_of_silent haside ?_
      rintro _ ⟨⟩
      exact h
  | onOrderInsertRejected input error =>
      cases href : t.refToOrderId input.orderRef with
      | none =>
          have hperform : (Task.onOrderInsertRejected input error).perform M t = (t, none) := by
            simp only [Task.perform, href]
          refine told_of_silent ?_ ?_ <;> rw [hperform]
          · exact Aside.refl id t
          · rintro _ ⟨⟩
      | some orderId =>
          have hperform : (Task.onOrderInsertRejected input error).perform M t =
              (t.eraseOrderMapping orderId, some ⟨.order (Trader.rejectedOrder M orderId input error),
                t.resolveOrderSource orderId⟩) := by
            simp only [Task.perform, href]
          by_cases hid : orderId = id
          · subst hid
            refine ⟨fun _ _ _ => ⟨_, href⟩, .inr ?_⟩
            rw [hperform]
            refine ⟨hnamed.not_mapped_eraseOrderMapping, .inl ?_⟩
            rintro _ ⟨⟩ -
            exact ⟨rfl, rfl⟩
          · refine told_of_silent ?_ ?_ <;> rw [hperform]
            · exact aside_eraseOrderMapping hid
            · rintro _ ⟨⟩
              exact hid
  | _ =>
      refine told_of_silent ⟨fun _ hid => hid, rfl⟩ ?_
      rintro _ ⟨⟩

end Trader

/-! ## A run after the order was inserted -/

namespace Day

variable {M : Markets} {E : Exchange δ} {day : Day δ}

/-- The task that is performed next. -/
def ApartNext (M : Markets) (id : UInt64) (t : Trader δ) : List (Task δ) → Prop
  | [] => True
  | task :: pending => Trader.ApartTask M id { t with pending := pending } task

/-- A step after which an order is what CTP reports of it: the process goes on, and nobody else uses
the order's id. -/
def Apart (M : Markets) (id : UInt64) (day : Day δ) : Step δ → Prop
  | .task => ApartNext M id day.trader day.trader.pending
  | .orderInput input _ _ => input.orderId ≠ id
  | .restart _ _ _ => False
  | _ => True

instance (M : Markets) (id : UInt64) (t : Trader δ) :
    (tasks : List (Task δ)) → Decidable (ApartNext M id t tasks)
  | [] => isTrue trivial
  | task :: pending =>
      inferInstanceAs (Decidable (Trader.ApartTask M id { t with pending := pending } task))

instance (M : Markets) (id : UInt64) (day : Day δ) : (s : Step δ) → Decidable (day.Apart M id s)
  | .task => inferInstanceAs (Decidable (ApartNext M id day.trader day.trader.pending))
  | .orderInput input _ _ => inferInstanceAs (Decidable (input.orderId ≠ id))
  | .restart _ _ _ => isFalse fun h => h
  | .callback _ | .drainTasks | .orderAction _ _ | .missInput _ _ | .writeTo _ => isTrue trivial

/-- What is published of an order, while it is not over and afterwards. -/
inductive Phase (id : UInt64) (day : Day δ) : Prop
  | active (h : ∀ e ∈ day.published, e.record.orderId = id → Unfinished e.record)
  | rejected (hmapped : ¬ day.trader.Mapped id)
      (h : ∀ e ∈ day.published, e.record.orderId = id → Unfinished e.record ∨ SpentError e.record)
  | reported (hmapped : ¬ day.trader.Mapped id)
      (h : ∀ e ∈ day.published, e.record.orderId = id → ¬ InError e.record)

/-- The order is led to by its order ref at most, and in one of its phases. -/
structure Watched (id : UInt64) (ref : String) (day : Day δ) : Prop where
  named : day.trader.Named id ref
  phase : day.Phase id

/-- A step that publishes nothing about the order and leaves its entries alone. -/
theorem Watched.aside {day' : Day δ} (h : day.Watched id ref)
    (haside : Trader.Aside id day.trader day'.trader)
    (hpublished : ∀ e ∈ day'.published, e.record.orderId = id → e ∈ day.published) :
    day'.Watched id ref := by
  refine ⟨haside.named h.named, ?_⟩
  rcases h.phase with hactive | ⟨hmapped, hrejected⟩ | ⟨hmapped, hreported⟩
  · exact .active fun e he hid => hactive e (hpublished e he hid) hid
  · exact .rejected (fun h => hmapped (haside.mapped h))
      fun e he hid => hrejected e (hpublished e he hid) hid
  · exact .reported (fun h => hmapped (haside.mapped h))
      fun e he hid => hreported e (hpublished e he hid) hid

/-- A task that is performed. -/
theorem Watched.perform (h : day.Watched id ref) {task : Task δ}
    (hapart : Trader.ApartTask M id day.trader task) : (day.perform M E task).Watched id ref := by
  obtain ⟨hmapped, htold⟩ := Trader.told_of_apart h.named hapart
  have hpublished : ∀ e ∈ (day.perform M E task).published, e ∈ day.published ∨
      ∃ p ∈ (task.perform M day.trader).2, e.record = p.record := by
    intro e he
    rcases (mem_published_publish ..).mp he with hold | ⟨p, hp, rfl⟩
    · exact .inl hold
    · exact .inr ⟨p, hp, rfl⟩
  -- once the order is over nothing is told of it
  have hsilent : ¬ day.trader.Mapped id → ∀ e ∈ (day.perform M E task).published,
      e.record.orderId = id → e ∈ day.published := by
    intro hover e he hid
    rcases hpublished e he with hold | ⟨p, hp, hrecord⟩
    · exact hold
    · exact absurd (hmapped p hp (hrecord ▸ hid)) hover
  have hover : ¬ day.trader.Mapped id → ¬ (day.perform M E task).trader.Mapped id := by
    intro hover hmapped'
    rcases htold with ⟨haside, -⟩ | ⟨hnone, -⟩
    · exact hover (haside.mapped hmapped')
    · exact hnone hmapped'
  have hnamed : (day.perform M E task).trader.Named id ref := by
    rcases htold with ⟨haside, -⟩ | ⟨hnone, -⟩
    · exact haside.named h.named
    · exact Trader.named_of_not_mapped hnone
  refine ⟨hnamed, ?_⟩
  rcases h.phase with hactive | ⟨hgone, hrejected⟩ | ⟨hgone, hreported⟩
  · rcases htold with ⟨-, hopen⟩ | ⟨hnone, hspent | hreported⟩
    · refine .active fun e he hid => ?_
      rcases hpublished e he with hold | ⟨p, hp, hrecord⟩
      · exact hactive e hold hid
      · rw [hrecord] at hid ⊢
        exact hopen p hp hid
    · refine .rejected hnone fun e he hid => ?_
      rcases hpublished e he with hold | ⟨p, hp, hrecord⟩
      · exact .inl (hactive e hold hid)
      · rw [hrecord] at hid ⊢
        exact .inr (hspent p hp hid)
    · refine .reported hnone fun e he hid => ?_
      rcases hpublished e he with hold | ⟨p, hp, hrecord⟩
      · exact (hactive e hold hid).not_inError
      · rw [hrecord] at hid ⊢
        exact hreported p hp hid
  · exact .rejected (hover hgone) fun e he hid => hrejected e (hsilent hgone e he hid) hid
  · exact .reported (hover hgone) fun e he hid => hreported e (hsilent hgone e he hid) hid

theorem Watched.step (h : day.Watched id ref) {s : Step δ} (hapart : day.Apart M id s) :
    (day.step M E s).Watched id ref := by
  cases s with
  | callback task =>
      refine h.aside ?_ ?_
      · cases task <;> exact ⟨fun _ hid => hid, rfl⟩
      · cases task <;> exact fun e he _ => he
  | drainTasks =>
      refine h.aside ?_ fun e he _ => he
      simp only [Day.step, Trader.drainTasks]
      split <;> exact ⟨fun _ hid => hid, rfl⟩
  | task =>
      simp only [Day.step, nextTask]
      unfold Apart at hapart
      split
      · exact h
      · rename_i task pending hpending
        simp only [hpending] at hapart
        have hnext : ({ day with trader := { day.trader with pending := pending } } : Day δ).Watched
            id ref := h.aside ⟨fun _ hid => hid, rfl⟩ fun e he _ => he
        exact hnext.perform hapart
  | orderInput input source ret =>
      have hne : input.orderId ≠ id := hapart
      simp only [Day.step, Day.orderInput]
      split
      · exact h
      · rcases Trader.insertOrder_cases input source ret day.trader with
          ⟨counter, order, hinsert, -, horder, -⟩ | hinsert
        · rw [hinsert]
          refine h.aside ⟨fun _ hid => hid, rfl⟩ fun e he hid => ?_
          rcases (mem_published_publish ..).mp he with hold | ⟨p, hp, rfl⟩
          · exact hold
          · cases hp
            exact absurd (horder.symm.trans hid) hne
        · rw [hinsert]
          exact h.aside (Trader.aside_enter hne) fun e he _ => he
  | missInput input source => exact h.aside (Trader.Aside.refl id _) fun e he _ => he
  | orderAction action ret =>
      refine h.aside ?_ fun e he _ => he
      simp only [Day.step, Trader.cancelOrder]
      split
      · exact Trader.Aside.refl id _
      · split <;> exact ⟨fun _ hid => hid, rfl⟩
  | writeTo dest =>
      refine h.aside ?_ fun e he _ => he
      simp only [Day.step, Trader.onWriteTo]
      split <;> exact ⟨fun _ hid => hid, rfl⟩
  | restart _ _ _ => exact hapart.elim

theorem Watched.run (h : day.Watched id ref) {steps : List (Step δ)}
    (hapart : Along (Day.step M E) (Day.Apart M id) day steps) :
    (day.run M E steps).Watched id ref :=
  hapart.foldl (fun _ _ h hapart => h.step hapart) h

/-- An order that is inserted under a new id, of which nothing was published. -/
theorem watched_orderInput {input : OrderInput δ} {source : UInt32} {ret : Int32}
    (hpending : day.trader.pending = []) (hinsert : (day.trader.insertOrder input source ret).2 = none)
    (hnew : ¬ day.trader.Mapped input.orderId)
    (hsilent : ∀ e ∈ day.published, e.record.orderId ≠ input.orderId) :
    (day.orderInput input source ret).Watched input.orderId
      (toString (day.trader.orderRefCounter + 1)) := by
  rcases Trader.insertOrder_cases input source ret day.trader with ⟨_, _, heq, -⟩ | heq
  · rw [heq] at hinsert
    cases hinsert
  · simp only [Day.orderInput, hpending, heq]
    exact ⟨Trader.named_enter hnew, .active fun e he hid => absurd hid (hsilent e he)⟩

/-- What is published of an order that is rejected either does not end it, or says that nothing is
left of it. -/
theorem spent_of_rejected (h : day.Watched id ref) {e' : Published δ} (he' : e' ∈ day.published)
    (hid' : e'.record.orderId = id) (herror : InError e'.record) {e : Published δ}
    (he : e ∈ day.published) (hid : e.record.orderId = id) :
    Unfinished e.record ∨ SpentError e.record := by
  rcases h.phase with hactive | ⟨-, hrejected⟩ | ⟨-, hreported⟩
  · exact .inl (hactive e he hid)
  · exact hrejected e he hid
  · exact absurd herror (hreported e' he' hid')

end Day

/-! ## Rejections -/

/-- The trading data of a record. -/
def tradingData : Record Details → TradingData
  | .order order => .order order
  | .trade trade => .trade trade

theorem orderId_tradingData (r : Record Details) : (tradingData r).orderId = r.orderId := by
  cases r <;> rfl

/-- An order input that is accepted and rejected later; what updates tell of the order is what was
published of it. -/
structure Rejection (M : Markets) (E : Exchange Details) (day : Day Details)
    (input : OrderInput Details) (source : UInt32) (steps : List (Step Details))
    (us : List Update) : Prop where
  idle : day.trader.pending = []
  accepted : (day.trader.insertOrder input source 0).2 = none
  new : ¬ day.trader.Mapped input.orderId
  silent : ∀ e ∈ day.published, e.record.orderId ≠ input.orderId
  apart : Along (Day.step M E) (Day.Apart M input.orderId) (day.orderInput input source 0) steps
  rejected : ∃ e ∈ ((day.orderInput input source 0).run M E steps).published,
    e.record.orderId = input.orderId ∧ InError e.record
  reported : ∀ u ∈ us, u.data.orderId = input.orderId →
    ∃ e ∈ ((day.orderInput input source 0).run M E steps).published, u.data = tradingData e.record

section Rejections

variable {M : Markets} {E : Exchange Details} {day : Day Details} {input : OrderInput Details}
  {source account uid : UInt32} {steps : List (Step Details)} {us : List Update} {app : App}
  {market : Market} {books books' books'' : Books} {b : AccountBook} {time : Int64}

theorem volume_pos_of_accepted (h : (day.trader.insertOrder input source 0).2 = none) :
    0 < input.volume.toInt := by
  by_contra hneg
  have hle : input.volume ≤ 0 := Int64.le_iff_toInt_le.mpr (not_lt.mp hneg)
  unfold Trader.insertOrder at h
  split_ifs at h

/-- Updates tell nothing of the order by which something is given back. -/
theorem Rejection.exhausted (h : Rejection M E day input source steps us) {u : Update} (hu : u ∈ us)
    (hid : u.data.orderId = input.orderId) : Exhausted u.data := by
  have hwatched := (Day.watched_orderInput h.idle h.accepted h.new h.silent).run h.apart
  obtain ⟨e', he', hid', herror⟩ := h.rejected
  obtain ⟨e, he, hdata⟩ := h.reported u hu hid
  rw [hdata, orderId_tradingData] at hid
  rw [hdata]
  have hspent := Day.spent_of_rejected hwatched he' hid' herror he hid
  cases hrecord : e.record with
  | trade trade =>
      rw [hrecord] at hspent
      exact (hspent.elim id id).elim
  | order order =>
      rw [hrecord] at hspent
      intro hfinal
      exact (hspent.resolve_left fun h => h hfinal).2

/-- With an order that is rejected a book ends up as it would without it just where the order input
froze nothing. -/
theorem rejection_undone_iff (h : Rejection M E day input source steps us)
    (hmethod : Method.ofInstrumentType input.instrumentType = some .future)
    (hbook : getBook app books uid = .ok b)
    (hreach : Update.Reaches ⟨time, source, account, .orderInput input⟩ uid)
    (honce : ∀ u ∈ ⟨time, source, account, .orderInput input⟩ :: us, u.ReachesOnce uid)
    (hleaves : ∀ b₁, b.applyUpdate market ⟨time, source, account, .orderInput input⟩ = .ok b₁ →
      AlongM (Book.applyUpdate market) (Update.Leaves input.orderId (Book.volumeFrozen input b)) b₁
        (us.filter fun u => u.Reaches uid))
    (hwith : updateBooks app market (⟨time, source, account, .orderInput input⟩ :: us) books =
      .ok books')
    (hwithout : updateBooks app market (us.filter fun u => u.data.orderId ≠ input.orderId) books =
      .ok books'') :
    ∃ c c', getBook app books'' uid = .ok c ∧ getBook app books' uid = .ok c' ∧
      (Undone c c' ↔ Book.FreezesNothing market input b) := by
  have hvolume := volume_pos_of_accepted h.accepted
  obtain ⟨c', hc', hrun'⟩ := applyUpdates_of_updateBooks hwith hbook honce
  obtain ⟨c, hc, hrun⟩ := applyUpdates_of_updateBooks hwithout hbook fun u hu =>
    honce u (List.mem_cons_of_mem _ (List.mem_filter.mp hu).1)
  refine ⟨c, c', hc, hc', ?_⟩
  rw [List.filter_cons_of_pos (by simpa using hreach), Book.applyUpdates, List.foldlM_cons] at hrun'
  obtain ⟨b₁, hinput, hrun'⟩ := Outcome.exists_of_bind hrun'
  have hafter := hleaves b₁ hinput
  have hinput : b.applyAndUpdate market .future time (.orderInput input) = .ok b₁ := by
    unfold Book.applyUpdate at hinput
    have hmethod' : Method.ofInstrumentType (TradingData.orderInput input).instrumentType =
        some .future := hmethod
    simpa only [hmethod'] using hinput
  have hexhausted : ∀ u ∈ us.filter (fun u => u.Reaches uid), u.data.orderId = input.orderId →
      Exhausted u.data := fun u hu => h.exhausted (List.mem_filter.mp hu).1
  rw [List.filter_comm] at hrun
  have hparallel := (Book.parallel_applyAndUpdate_orderInput hvolume hinput).applyUpdates hexhausted
    hafter hrun hrun'
  obtain ⟨direction, hdirection⟩ := Book.exists_direction_of_orderInput hinput
  rw [hparallel.undone_iff, Book.freezesNothing_iff hvolume hdirection]

end Rejections

/-- A strategy has an order to buy 10 contracts inserted, and CTP rejects it. -/
def inputToReject : OrderInput Details :=
  ⟨1, 0, "rb2610", "SHFE", .Future, 100, 100, 10, .Buy, .Limit, ⟨.Open, .Speculation, 0, 0, 0⟩⟩

def fieldToReject : InputOrderField Details :=
  ⟨"1", "rb2610", "SHFE", '2', 100, 10, '0', ⟨.Open, .Speculation, 0, 0, 0⟩⟩

/-- Reports that are all about orders of one session. -/
def oneSession : Exchange Details where
  tradeKey trade := ⟨1, 100, trade.orderRef⟩
  inputKey input := ⟨1, 100, input.orderRef⟩
  tradeKey_orderRef _ := rfl
  inputKey_orderRef _ := rfl

def dayToReject : Day Details :=
  (Day.start [77]).run exampleMarkets oneSession [.callback (.onLoginSuccess 1 100),
    .callback .onSettlementConfirmed, .drainTasks, .task, .task]

def stepsToReject : List (Step Details) :=
  [.callback (.onOrderInsertRejected fieldToReject ⟨31, ""⟩), .drainTasks, .task]

/-- The books get what was published. -/
def updatesOfRejection : List Update :=
  ((dayToReject.orderInput inputToReject 77 0).run exampleMarkets oneSession stepsToReject).published.map
    fun e => ⟨5, 10, 77, tradingData e.record⟩

theorem rejection_example :
    Rejection exampleMarkets oneSession dayToReject inputToReject 77 stepsToReject
      updatesOfRejection where
  idle := by decide +kernel
  accepted := Option.isNone_iff_eq_none.mp (by decide +kernel)
  new := by
    rintro ⟨ref, h⟩
    cases h
  silent := by
    intro e he
    cases he
  apart := by decide +kernel
  rejected := by decide +kernel
  reported u hu _ := by
    obtain ⟨e, he, rfl⟩ := List.mem_map.mp hu
    exact ⟨e, he, rfl⟩

/-- The margin of 1000 stays frozen. -/
theorem rejection_undone_iff_example :
    ∃ books' books'' c c', updateBooks exampleApp noInstruments
        (⟨4, 77, 10, .orderInput inputToReject⟩ :: updatesOfRejection) (fun _ => none) = .ok books' ∧
      updateBooks exampleApp noInstruments
        (updatesOfRejection.filter fun u => u.data.orderId ≠ inputToReject.orderId)
          (fun _ => none) = .ok books'' ∧
      getBook exampleApp books'' 10 = .ok c ∧ getBook exampleApp books' 10 = .ok c' ∧
      ¬ Undone c c' := by
  obtain ⟨books', hwith⟩ := Outcome.exists_of_isOk (show (updateBooks exampleApp noInstruments
    (⟨4, 77, 10, .orderInput inputToReject⟩ :: updatesOfRejection) fun _ => none).isOk = true by
      decide +kernel)
  obtain ⟨books'', hwithout⟩ := Outcome.exists_of_isOk (show (updateBooks exampleApp noInstruments
    (updatesOfRejection.filter fun u => u.data.orderId ≠ inputToReject.orderId)
      fun _ => none).isOk = true by decide +kernel)
  obtain ⟨b, hbook⟩ := Outcome.exists_of_isOk
    (show (getBook exampleApp (fun _ => none) 10).isOk = true by decide +kernel)
  have hleaves : (b.applyUpdate noInstruments ⟨4, 77, 10, .orderInput inputToReject⟩).toOption.all
      (fun b₁ => decide (AlongM (Book.applyUpdate noInstruments)
        (Update.Leaves inputToReject.orderId (Book.volumeFrozen inputToReject b)) b₁
        (updatesOfRejection.filter fun u => u.Reaches 10))) = true := by
    cases hbook
    decide +kernel
  obtain ⟨c, c', hc, hc', hiff⟩ := rejection_undone_iff rejection_example (by decide) hbook
    (.inr ⟨rfl, by decide⟩) (by decide +kernel) (fun b₁ hb₁ => by
      rw [hb₁] at hleaves
      exact of_decide_eq_true hleaves) hwith hwithout
  refine ⟨books', books'', c, c', hwith, hwithout, hc, hc', fun hundone => ?_⟩
  have hnothing := hiff.mp hundone
  cases hbook
  exact absurd hnothing (by decide +kernel)

end Kungfu.Ctp
