import Kungfu.Broker.OrderLife
import Kungfu.Broker.Recover

/-!
# Self-deals

A trader is not to deal with itself: an order input that crosses an open order of the same account
is refused.  The test goes through the orders of the base class.  The simulated trader keeps what
it inserts in a table of its own, so the test knows the orders that were recovered and no others.
Nor is it made when an order input comes out of a batch.
-/

namespace Kungfu.Broker

open Longfist Wingchun Logic

/-- What the simulated trader is given, from the strategies and for itself. -/
inductive TraderEvent
  | message (message : Message)
  | cancel (source : UInt32) (orderId : UInt64)
  | blockMessage (source : UInt32) (blockId : UInt64)

def TraderEvent.source : TraderEvent → UInt32
  | message m => m.source
  | cancel source _ => source
  | blockMessage source _ => source

/-- The order input that an event brings. -/
def TraderEvent.input? : TraderEvent → Option OrderInput
  | message (.orderInput _ input) => some input
  | _ => none

namespace TraderSim

section

variable (frameUid : ℕ → UInt64) (blockId : OrderInput → UInt64)

def handleEvent (t : Trader TraderSim) : TraderEvent → Handled TraderSim
  | .message m => t.handle (service frameUid blockId) m
  | .cancel source orderId =>
      ⟨none, [], (cancelOrder t.hasWriter source orderId t.own).map fun own => { t with own := own }⟩
  | .blockMessage _ blockId =>
      ⟨none, [], .ok { t with own := { t.own with blockIds := blockId :: t.own.blockIds } }⟩

/-- The trader after an event, unless something was thrown. -/
def stepEvent (t : Trader TraderSim) (event : TraderEvent) : Except Fault (Trader TraderSim) :=
  (handleEvent frameUid blockId t event).outcome

end

/-- A simulated trader that has recovered from its journals. -/
def recovered (matchMode : MatchMode) (hasWriter : UInt32 → Bool)
    (written read : List JournalFrame) : Trader TraderSim :=
  ((Trader.start ∅ true (fun _ => []) hasWriter (start matchMode)).recover written read).trader

end TraderSim

/-! ## What a self-deal is -/

/-- An order is on the other side of an order input, for the same instrument, at a price that the
order input would take. -/
structure Crosses (input : OrderInput) (order : Order) : Prop where
  exchangeId : order.exchangeId = input.exchangeId
  instrumentId : order.instrumentId = input.instrumentId
  price : (input.side = .Buy ∧ order.side = .Sell ∧
      (input.priceType ≠ .Limit ∨ order.limitPrice ≤ input.limitPrice)) ∨
    (input.side = .Sell ∧ order.side = .Buy ∧
      (input.priceType ≠ .Limit ∨ input.limitPrice ≤ order.limitPrice))

instance (input : OrderInput) (order : Order) : Decidable (Crosses input order) :=
  decidable_of_iff (order.exchangeId = input.exchangeId ∧ order.instrumentId = input.instrumentId ∧
      ((input.side = .Buy ∧ order.side = .Sell ∧
        (input.priceType ≠ .Limit ∨ order.limitPrice ≤ input.limitPrice)) ∨
      (input.side = .Sell ∧ order.side = .Buy ∧
        (input.priceType ≠ .Limit ∨ input.limitPrice ≤ order.limitPrice))))
    ⟨fun h => ⟨h.1, h.2.1, h.2.2⟩, fun h => ⟨h.1, h.2, h.3⟩⟩

/-- The latest order of an id that was reported. -/
def TraderSim.lastReported (own : TraderSim) (orderId : UInt64) : Option Order :=
  ((own.reports orderId).filterMap recordOrder?).getLast?

/-- An order is open: it is the latest of its id, reported or else recovered, and it is not
final. -/
def Live (orders : AList fun _ : UInt64 => OrderState) (own : TraderSim) (order : Order) : Prop :=
  ∃ orderId, (own.lastReported orderId).or ((orders.lookup orderId).map (·.data)) = some order ∧
    isFinalStatus order.status = false

section Stages

variable {missing late : Prop} {input : OrderInput} {held : Option Order}
  {records : List (Record Details)}

/-- The order that was reported last is kept if it is open. -/
theorem Stage.last (h : Stage missing late input held records) :
    ∃ order, (records.filterMap recordOrder?).getLast? = some order ∧
      (isFinalStatus order.status = false → held = some order) := by
  have hlast (order : Order) (trades : List (Trade Details)) :
      ((Record.order order :: trades.map .trade).filterMap recordOrder?).getLast? = some order := by
    rw [List.filterMap_cons, filterMap_recordOrder]
    rfl
  cases h with
  | refused order hstatus hvolume hleft =>
      refine ⟨order, hlast order [], fun hopen => ?_⟩
      rw [hstatus] at hopen
      cases hopen
  | blocked order hstatus hmissing =>
      refine ⟨order, hlast order [], fun hopen => ?_⟩
      rw [hstatus] at hopen
      cases hopen
  | kept order trades hmatched => exact ⟨order, hlast order trades, fun _ => rfl⟩
  | through order trades hmatched hleft =>
      refine ⟨order, hlast order trades, fun hopen => ?_⟩
      rw [hmatched.filled.mpr hleft] at hopen
      cases hopen
  | cancelled order trades status hmatched hleft hstatus hlate =>
      refine ⟨{ order with status := status }, ?_, fun hopen => ?_⟩
      · rw [List.filterMap_append]
        exact List.getLast?_concat
      · rcases hstatus with rfl | rfl <;> cases hopen

/-- An order that is kept with nothing left is filled. -/
theorem Stage.filled_of_zero {order : Order} (h : Stage missing late input held records)
    (horder : held = some order) (hleft : order.volumeLeft = 0) : order.status = .Filled := by
  cases h with
  | kept order' trades hmatched =>
      cases horder
      exact hmatched.filled.mpr hleft
  | _ => cases horder

end Stages

namespace TraderSim

section

variable (frameUid : ℕ → UInt64) (blockId : OrderInput → UInt64)

/-- No order input is inserted that crosses an order that is open just before it is inserted, and
an order input that is refused does cross an open order. -/
structure Guarded (t : Trader TraderSim) (event : TraderEvent) : Prop where
  inserted : ∀ done input, done ++ [input] <+: (handleEvent frameUid blockId t event).inserted →
    ∀ own, done.foldlM (fun own i => insertOrder frameUid blockId t.hasWriter event.source i own)
        t.own = .ok own →
      ∀ order, Live t.orders own order → ¬ Crosses input order
  refused : (handleEvent frameUid blockId t event).refused.isSome →
    ∃ input ∈ event.input?, ∃ order, Live t.orders t.own order ∧ Crosses input order

/-- The orders that were inserted and are kept, where they are open. -/
def openOrders (own : TraderSim) : List Order :=
  (own.written.filterMap fun w => own.orders w.2.orderId).filter fun order =>
    !isFinalStatus order.status

/-- An order input crosses no open order that was inserted. -/
def ClearOfOpen (own : TraderSim) (input : OrderInput) : Prop :=
  ∀ order ∈ own.openOrders, ¬ Crosses input order

instance (own : TraderSim) : DecidablePred (ClearOfOpen own) := fun _ =>
  inferInstanceAs (Decidable (∀ order ∈ own.openOrders, _))

/-- An order that was recovered crosses an order input. -/
def CrossesRecovered (t : Trader TraderSim) (input : OrderInput) (orderId : UInt64) : Prop :=
  match t.orders.lookup orderId with
  | none => False
  | some state => Crosses input state.data

instance (t : Trader TraderSim) (input : OrderInput) (orderId : UInt64) :
    Decidable (CrossesRecovered t input orderId) :=
  match h : t.orders.lookup orderId with
  | none => isFalse (by simp [CrossesRecovered, h])
  | some state => decidable_of_iff (Crosses input state.data) (by simp [CrossesRecovered, h])

/-- The orders that the test takes for a self-deal are one, and where it finds none an order input
that is to be inserted crosses no open order that was inserted. -/
def Clear (t : Trader TraderSim) : TraderEvent → Prop
  | .message (.orderInput source input) =>
      (∀ orderId ∈ t.mapExInstrumentToOrderIds (Trader.exInstrument input),
        t.conflicts input orderId = true → CrossesRecovered t input orderId) ∧
      ((t.batchStatus source).getD false = false →
        (∀ orderId ∈ t.mapExInstrumentToOrderIds (Trader.exInstrument input),
          t.conflicts input orderId = false) → ClearOfOpen t.own input)
  | .message (.batchOrderEnd source) =>
      AlongM (fun own i => insertOrder frameUid blockId t.hasWriter source i own) ClearOfOpen t.own
        ((t.orderInputs source).getD [])
  | _ => True

instance (t : Trader TraderSim) : DecidablePred (Clear frameUid blockId t)
  | .message (.batchOrderBegin _) => isTrue trivial
  | .message (.orderInput _ input) =>
      -- the ids of the list are looked at, not all there are
      let _crosses : Decidable (∀ orderId ∈ t.mapExInstrumentToOrderIds (Trader.exInstrument input),
          t.conflicts input orderId = true → CrossesRecovered t input orderId) :=
        List.decidableBAll _ _
      let _passes : Decidable (∀ orderId ∈ t.mapExInstrumentToOrderIds (Trader.exInstrument input),
          t.conflicts input orderId = false) :=
        List.decidableBAll _ _
      inferInstanceAs (Decidable (_ ∧ _))
  | .message (.batchOrderEnd _) => inferInstanceAs (Decidable (AlongM _ _ _ _))
  | .cancel _ _ => isTrue trivial
  | .blockMessage _ _ => isTrue trivial

end

/-! ## What the trader keeps of its orders -/

section Mirrors

variable {frameUid : ℕ → UInt64} {blockId : OrderInput → UInt64} {hasWriter : UInt32 → Bool}
  {source : UInt32} {input : OrderInput} {s s' : TraderSim} {missing late : Prop}
  {held : Option Order} {records : List (Record Details)}
  {orders : AList fun _ : UInt64 => OrderState} {orderId : UInt64}

/-- What the simulated trader keeps of the orders that it reports, where others were recovered. -/
structure Mirrors (orders : AList fun _ : UInt64 => OrderState) (s : TraderSim) : Prop where
  keyed : WellKeyed s
  filled : ∀ orderId order, s.orders orderId = some order → order.volumeLeft = 0 →
    order.status = .Filled
  kept : ∀ orderId order, s.lastReported orderId = some order →
    isFinalStatus order.status = false → s.orders orderId = some order
  fresh : ∀ orderId ∈ orders, Fresh orderId s

theorem Mirrors.insertOrder (h : Mirrors orders s) (hid : input.orderId ∉ orders)
    (hok : insertOrder frameUid blockId hasWriter source input s = .ok s') : Mirrors orders s' := by
  have hevent : handle frameUid blockId hasWriter s (.insert source input) = .ok s' := hok
  have hframe (id : UInt64) (hne : ¬ Concerns id (.insert source input)) :
      s'.orders id = s.orders id ∧ s'.reports id = s.reports id := handle_frame h.keyed hne hevent
  obtain ⟨held, records, hstage, hids, hwritten, horders⟩ := insertOrder_spec True hok
  constructor
  · exact h.keyed.handle hevent
  · intro orderId order horder
    rw [horders] at horder
    split at horder
    · exact hstage.filled_of_zero horder
    · exact h.filled orderId order horder
  · intro orderId order horder hopen
    by_cases hown : input.orderId = orderId
    · subst hown
      obtain ⟨last, hlast, hheld⟩ := hstage.last
      rw [lastReported, reports_append_own hwritten hids, List.filterMap_append,
        List.getLast?_append, hlast, Option.some_or] at horder
      cases horder
      rw [horders, hheld hopen]
      simp
    · rw [lastReported, (hframe orderId hown).2] at horder
      rw [(hframe orderId hown).1]
      exact h.kept orderId order horder hopen
  · intro orderId hmem
    refine (h.fresh orderId hmem).handle h.keyed ?_ hevent
    rintro i hi rfl
    cases hi
    exact hid hmem

theorem Mirrors.cancelOrder (h : Mirrors orders s)
    (hok : cancelOrder hasWriter source orderId s = .ok s') : Mirrors orders s' := by
  have hevent : handle (fun _ => 0) (fun _ => 0) hasWriter s (.cancel source orderId) = .ok s' := hok
  have hframe (id : UInt64) (hne : ¬ Concerns id (.cancel source orderId)) :
      s'.orders id = s.orders id ∧ s'.reports id = s.reports id := handle_frame h.keyed hne hevent
  obtain ⟨horders, hwritten⟩ := cancelOrder_spec hok
  constructor
  · exact h.keyed.handle hevent
  · intro id order horder
    rw [horders] at horder
    split at horder
    · cases horder
    · exact h.filled id order horder
  · intro id order horder hopen
    by_cases hown : orderId = id
    · subst hown
      rcases hwritten with ⟨hwritten, hzero⟩ | ⟨o, ho, hleft, hwritten⟩
      · rw [lastReported, reports, hwritten] at horder
        have hkept := h.kept orderId order horder hopen
        rw [h.filled orderId order hkept (hzero order hkept)] at hopen
        cases hopen
      · rw [lastReported, reports_append _ hwritten,
          List.filter_cons_of_pos (by exact decide_eq_true (h.keyed orderId o ho)),
          List.filterMap_append, List.getLast?_append] at horder
        cases horder
        revert hopen
        unfold cancelledStatus
        split <;>
        · intro hopen
          cases hopen
    · rw [lastReported, (hframe id hown).2] at horder
      rw [(hframe id hown).1]
      exact h.kept id order horder hopen
  · intro id hmem
    exact (h.fresh id hmem).handle h.keyed (by simp [input?]) hevent

end Mirrors

/-! ## What the test knows -/

section Knows

variable {frameUid : ℕ → UInt64} {blockId : OrderInput → UInt64} {hasWriter : UInt32 → Bool}
  {source : UInt32} {input : OrderInput} {own : TraderSim} {t t' : Trader TraderSim}
  {orders : AList fun _ : UInt64 => OrderState} {event : TraderEvent}

/-- An order input crosses no open order that was recovered. -/
def ClearOfRecovered (orders : AList fun _ : UInt64 => OrderState) (input : OrderInput) : Prop :=
  ∀ orderId state, orders.lookup orderId = some state → isFinalStatus state.data.status = false →
    ¬ Crosses input state.data

/-- An order is found by the test if it is crossed. -/
theorem conflicts_of_crosses {orderId : UInt64} {state : OrderState}
    (hstate : t.orders.lookup orderId = some state)
    (hopen : isFinalStatus state.data.status = false) (hcrosses : Crosses input state.data) :
    t.conflicts input orderId = true := by
  simp only [Trader.conflicts, hstate]
  rcases hcrosses.price with ⟨hinput, horder, hprice⟩ | ⟨hinput, horder, hprice⟩
  · rw [if_neg (by simp [hinput, horder, hopen])]
    split
    · rfl
    · rename_i hlimit
      have hle := hprice.resolve_left hlimit
      rw [if_neg (fun h => absurd h.2 (not_lt.mpr hle)), if_neg (by simp [hinput])]
  · rw [if_neg (by simp [hinput, horder, hopen])]
    split
    · rfl
    · rename_i hlimit
      have hle := hprice.resolve_left hlimit
      rw [if_neg (by simp [hinput]), if_neg (fun h => absurd h.2 (not_lt.mpr hle))]

/-- The order inputs of a batch are inserted one after another. -/
theorem insertAll_spec (inputs : List OrderInput) (t : Trader TraderSim) :
    (insertAll (insertion frameUid blockId) source inputs t).refused = none ∧
      (insertAll (insertion frameUid blockId) source inputs t).inserted <+: inputs ∧
      ∀ t', (insertAll (insertion frameUid blockId) source inputs t).outcome = .ok t' →
        ∃ own, inputs.foldlM (fun own i => insertOrder frameUid blockId t.hasWriter source i own)
          t.own = .ok own ∧ t' = { t with own := own } := by
  induction inputs generalizing t with
  | nil => exact ⟨rfl, List.prefix_rfl, fun t' h => ⟨t.own, rfl, (Except.ok.inj h).symm⟩⟩
  | cons input inputs ih =>
      have hinsert : (t.insert (insertion frameUid blockId) source input).outcome =
          insertOrder frameUid blockId t.hasWriter source input t.own >>= fun own =>
            .ok { t with own := own } := rfl
      rw [insertAll, hinsert, List.foldlM_cons]
      cases insertOrder frameUid blockId t.hasWriter source input t.own with
      | error fault => exact ⟨rfl, ⟨inputs, rfl⟩, nofun⟩
      | ok own =>
          obtain ⟨-, hprefix, houtcome⟩ := ih { t with own := own }
          exact ⟨rfl, List.cons_prefix_cons.mpr ⟨rfl, hprefix⟩, houtcome⟩

/-- What the trader and the test know of the orders, of which some were recovered. -/
structure Knows (orders : AList fun _ : UInt64 => OrderState) (t : Trader TraderSim) : Prop where
  known : t.orders = orders
  detects : t.selfDealDetect = true
  indexed : ∀ orderId state, orders.lookup orderId = some state →
    orderId ∈ t.mapExInstrumentToOrderIds (state.data.exchangeId ++ state.data.instrumentId)
  mirrors : Mirrors orders t.own
  waiting : ∀ source, ∀ input ∈ (t.orderInputs source).getD [],
    input.orderId ∉ orders ∧ ClearOfRecovered orders input

/-- The test finds every recovered order that is crossed. -/
theorem Knows.clearOfRecovered (h : Knows orders t) (hrisk : ¬ t.hasSelfDealRisk input = true) :
    ClearOfRecovered orders input := by
  intro orderId state hstate hopen hcrosses
  apply hrisk
  rw [← h.known] at hstate
  rw [Trader.hasSelfDealRisk, h.detects, Bool.true_and, List.any_eq_true]
  refine ⟨orderId, ?_, conflicts_of_crosses hstate hopen hcrosses⟩
  rw [h.known] at hstate
  have hmem := h.indexed orderId state hstate
  rwa [hcrosses.exchangeId, hcrosses.instrumentId] at hmem

/-- An open order was recovered, or it was inserted and is kept. -/
theorem Mirrors.not_crosses {order : Order} (h : Mirrors orders own)
    (hrecovered : ClearOfRecovered orders input) (hclear : ClearOfOpen own input)
    (hlive : Live orders own order) : ¬ Crosses input order := by
  obtain ⟨orderId, hlast, hopen⟩ := hlive
  cases hreported : own.lastReported orderId with
  | none =>
      rw [hreported, Option.none_or] at hlast
      obtain ⟨state, hstate, rfl⟩ := Option.map_eq_some_iff.mp hlast
      exact hrecovered orderId state hstate hopen
  | some last =>
      rw [hreported, Option.some_or] at hlast
      cases hlast
      have hkept := h.kept orderId order hreported hopen
      apply hclear
      have hmem := mem_of_recordOrder (List.mem_of_getLast? hreported)
      obtain ⟨hwritten, hid⟩ := List.mem_filter.mp hmem
      obtain ⟨w, hw, hrecord⟩ := List.mem_map.mp hwritten
      refine List.mem_filter.mpr ⟨List.mem_filterMap.mpr ⟨w, hw, ?_⟩, by simp [hopen]⟩
      rw [hrecord, of_decide_eq_true hid]
      exact hkept

theorem Mirrors.insertEach {inputs : List OrderInput} {own' : TraderSim} (h : Mirrors orders own)
    (hids : ∀ input ∈ inputs, input.orderId ∉ orders)
    (hok : inputs.foldlM (fun own i => TraderSim.insertOrder frameUid blockId hasWriter source i own)
      own = .ok own') : Mirrors orders own' := by
  induction inputs generalizing own with
  | nil =>
      cases hok
      exact h
  | cons input inputs ih =>
      rw [List.foldlM_cons] at hok
      obtain ⟨own₁, hinsert, hok⟩ := Outcome.exists_of_bind hok
      have hmirrors := h.insertOrder (hids input (by simp)) hinsert
      exact ih hmirrors (fun i hi => hids i (List.mem_cons_of_mem input hi)) hok

theorem Knows.recordInput (h : Knows orders t) : Knows orders (t.recordInput input) := by
  rw [Trader.recordInput, if_pos h.detects]
  refine ⟨h.known, h.detects, fun orderId state hstate => ?_, h.mirrors, h.waiting⟩
  have hmem := h.indexed orderId state hstate
  dsimp only
  rw [Function.update_apply]
  split
  · rename_i hkey
    rw [hkey] at hmem
    exact List.mem_cons_of_mem _ hmem
  · exact hmem

theorem Knows.clearOrderInputs (h : Knows orders t) : Knows orders (t.clearOrderInputs source) := by
  refine ⟨h.known, h.detects, h.indexed, h.mirrors, fun s i hi => ?_⟩
  by_cases hs : s = source
  · subst hs
    simp at hi
  · rw [Trader.orderInputs_clearOrderInputs, Function.update_of_ne hs] at hi
    exact h.waiting s i hi

theorem Knows.handleOrderInput (h : Knows orders t) (hid : input.orderId ∉ orders)
    (hok : (t.handleOrderInput (service frameUid blockId) source input).outcome = .ok t') :
    Knows orders t' := by
  by_cases hrisk : t.hasSelfDealRisk input = true
  · rw [Trader.handleOrderInput_of_risk hrisk] at hok
    dsimp only at hok
    split at hok
    · cases hok
      exact h
    · cases hok
  · have hrecorded : Knows orders (t.recordInput input) := h.recordInput
    cases hstatus : (t.batchStatus source).getD false with
    | true =>
        rw [Trader.handleOrderInput_of_open hrisk hstatus] at hok
        cases hok
        refine ⟨hrecorded.known, hrecorded.detects, hrecorded.indexed, hrecorded.mirrors,
          fun s i hi => ?_⟩
        by_cases hs : s = source
        · subst hs
          simp only [Function.update_self, Option.getD_some, List.mem_append,
            List.mem_singleton] at hi
          rcases hi with hi | rfl
          · exact h.waiting s i hi
          · exact ⟨hid, h.clearOfRecovered hrisk⟩
        · simp only [Function.update_of_ne hs] at hi
          exact h.waiting s i hi
    | false =>
        rw [Trader.handleOrderInput_of_closed hrisk hstatus] at hok
        obtain ⟨own, hinsert, hret⟩ := Outcome.exists_of_bind hok
        cases hret
        exact ⟨hrecorded.known, hrecorded.detects, hrecorded.indexed,
          hrecorded.mirrors.insertOrder hid hinsert, hrecorded.waiting⟩

theorem Knows.insertBatchOrders (h : Knows orders t)
    (hok : (TraderSim.insertBatchOrders (insertion frameUid blockId) source t).outcome = .ok t') :
    Knows orders t' := by
  unfold TraderSim.insertBatchOrders at hok
  split at hok
  · cases hok
    exact h
  · rename_i inputs hinputs
    have hwaiting := h.waiting source
    rw [hinputs, Option.getD_some] at hwaiting
    obtain ⟨-, -, houtcome⟩ := @insertAll_spec frameUid blockId source inputs t
    obtain ⟨u, hall, rfl⟩ := Outcome.exists_of_map hok
    obtain ⟨own, heach, rfl⟩ := houtcome u hall
    have hmirrors := h.mirrors.insertEach (fun i hi => (hwaiting i hi).1) heach
    have hafter : Knows orders { t with own := own } :=
      ⟨h.known, h.detects, h.indexed, hmirrors, h.waiting⟩
    exact hafter.clearOrderInputs

/-- The test goes on to know the orders when an order input of a new id comes. -/
theorem Knows.stepEvent (h : Knows orders t) (hid : ∀ input ∈ event.input?, input.orderId ∉ orders)
    (hok : stepEvent frameUid blockId t event = .ok t') : Knows orders t' := by
  cases event with
  | message m =>
      cases m with
      | batchOrderBegin source =>
          cases hok
          exact ⟨h.known, h.detects, h.indexed, h.mirrors, h.waiting⟩
      | orderInput source input => exact h.handleOrderInput (hid input rfl) hok
      | batchOrderEnd source =>
          have hclosed : Knows orders (t.setBatchStatus source false) :=
            ⟨h.known, h.detects, h.indexed, h.mirrors, h.waiting⟩
          obtain ⟨u, hbatch, rfl⟩ := Outcome.exists_of_map hok
          exact (hclosed.insertBatchOrders hbatch).clearOrderInputs
  | cancel source orderId =>
      obtain ⟨own, hcancel, rfl⟩ := Outcome.exists_of_map hok
      exact ⟨h.known, h.detects, h.indexed, h.mirrors.cancelOrder hcancel, h.waiting⟩
  | blockMessage source blockId =>
      cases hok
      exact ⟨h.known, h.detects, h.indexed,
        ⟨h.mirrors.keyed, h.mirrors.filled, h.mirrors.kept,
          fun id hid => ⟨(h.mirrors.fresh id hid).orders, (h.mirrors.fresh id hid).reports⟩⟩,
        h.waiting⟩

/-- An order that was recovered is open until one of its id is reported. -/
theorem Knows.live {orderId : UInt64} {state : OrderState} (h : Knows orders t)
    (hstate : orders.lookup orderId = some state) (hopen : isFinalStatus state.data.status = false) :
    Live orders t.own state.data := by
  refine ⟨orderId, ?_, hopen⟩
  have hmem : orderId ∈ orders := AList.lookup_isSome.mp (by rw [hstate]; rfl)
  rw [lastReported, (h.mirrors.fresh orderId hmem).reports, hstate]
  rfl

/-- Nothing is inserted that should not be, if what is inserted crosses no recovered order, and no
inserted one at its turn. -/
theorem Knows.guarded_of_inserted {inputs : List OrderInput} (h : Knows orders t)
    (hrefused : (handleEvent frameUid blockId t event).refused = none)
    (hinserted : (handleEvent frameUid blockId t event).inserted <+: inputs)
    (hwaiting : ∀ input ∈ inputs, input.orderId ∉ orders ∧ ClearOfRecovered orders input)
    (hclear : AlongM (fun own i => TraderSim.insertOrder frameUid blockId t.hasWriter event.source i
      own) ClearOfOpen t.own inputs) : Guarded frameUid blockId t event := by
  refine ⟨fun done input hprefix own hdone order hlive => ?_, fun hsome => ?_⟩
  · have hbefore : done ++ [input] <+: inputs := hprefix.trans hinserted
    have hmem : ∀ i ∈ done ++ [input], i ∈ inputs := fun i hi => hbefore.subset hi
    have hmirrors := h.mirrors.insertEach
      (fun i hi => (hwaiting i (hmem i (List.mem_append_left _ hi))).1) hdone
    rw [h.known] at hlive
    exact hmirrors.not_crosses (hwaiting input (hmem input (by simp))).2
      (hclear.of_prefix hbefore hdone) hlive
  · rw [hrefused] at hsome
    cases hsome

theorem Knows.guarded_orderInput (h : Knows orders t) (hid : input.orderId ∉ orders)
    (hclear : Clear frameUid blockId t (.message (.orderInput source input))) :
    Guarded frameUid blockId t (.message (.orderInput source input)) := by
  obtain ⟨hcrosses, hopen⟩ := hclear
  have hhandle : handleEvent frameUid blockId t (.message (.orderInput source input)) =
      t.handleOrderInput (service frameUid blockId) source input := rfl
  by_cases hrisk : t.hasSelfDealRisk input = true
  · refine ⟨fun done i hprefix => ?_, fun _ => ⟨input, rfl, ?_⟩⟩
    · rw [hhandle, Trader.handleOrderInput_of_risk hrisk] at hprefix
      simp at hprefix
    · rw [Trader.hasSelfDealRisk, h.detects, Bool.true_and, List.any_eq_true] at hrisk
      obtain ⟨orderId, hmem, hconflicts⟩ := hrisk
      have hrecovered := hcrosses orderId hmem hconflicts
      unfold CrossesRecovered at hrecovered
      unfold Trader.conflicts at hconflicts
      cases hlookup : t.orders.lookup orderId with
      | none => simp [hlookup] at hrecovered
      | some state =>
          simp only [hlookup] at hrecovered hconflicts
          have hstate : isFinalStatus state.data.status = false := by
            by_contra hfinal
            rw [if_pos (.inr (by simpa using hfinal))] at hconflicts
            cases hconflicts
          have hlive := h.live (h.known ▸ hlookup) hstate
          exact ⟨state.data, h.known ▸ hlive, hrecovered⟩
  · have hrecovered := h.clearOfRecovered hrisk
    cases hstatus : (t.batchStatus source).getD false with
    | true =>
        have hwaits := Trader.handleOrderInput_of_open (S := service frameUid blockId) hrisk hstatus
        refine h.guarded_of_inserted ?_ ?_ (fun i hi => absurd hi List.not_mem_nil) trivial
        · rw [hhandle, hwaits]
        · rw [hhandle, hwaits]
    | false =>
        have hinserts := Trader.handleOrderInput_of_closed (S := service frameUid blockId) hrisk
          hstatus
        have hnone : ∀ orderId ∈ t.mapExInstrumentToOrderIds (Trader.exInstrument input),
            t.conflicts input orderId = false := by
          rw [Trader.hasSelfDealRisk, h.detects, Bool.true_and] at hrisk
          simpa using hrisk
        refine @Knows.guarded_of_inserted _ _ _ _ _ [input] h ?_ ?_ ?_ ⟨hopen hstatus hnone, ?_⟩
        · rw [hhandle, hinserts]
          rfl
        · rw [hhandle, hinserts]
          exact List.prefix_rfl
        · intro i hi
          rw [List.mem_singleton.mp hi]
          exact ⟨hid, hrecovered⟩
        · split <;> trivial

theorem Knows.guarded_batchOrderEnd (h : Knows orders t)
    (hclear : Clear frameUid blockId t (.message (.batchOrderEnd source))) :
    Guarded frameUid blockId t (.message (.batchOrderEnd source)) := by
  have hspec := @insertAll_spec frameUid blockId source ((t.orderInputs source).getD [])
    (t.setBatchStatus source false)
  have hbatch : (handleEvent frameUid blockId t (.message (.batchOrderEnd source))).refused =
        none ∧
      (handleEvent frameUid blockId t (.message (.batchOrderEnd source))).inserted <+:
        (t.orderInputs source).getD [] := by
    change (TraderSim.insertBatchOrders (insertion frameUid blockId) source
        (t.setBatchStatus source false)).refused = none ∧
      (TraderSim.insertBatchOrders (insertion frameUid blockId) source
        (t.setBatchStatus source false)).inserted <+: _
    unfold TraderSim.insertBatchOrders
    rw [Trader.orderInputs_setBatchStatus]
    cases hinputs : t.orderInputs source with
    | none => exact ⟨rfl, List.prefix_rfl⟩
    | some inputs =>
        rw [hinputs] at hspec
        exact ⟨hspec.1, hspec.2.1⟩
  exact h.guarded_of_inserted hbatch.1 hbatch.2 (h.waiting source) hclear

/-- Where the test is enough, nothing is inserted or refused that should not be. -/
theorem Knows.guarded (h : Knows orders t) (hid : ∀ input ∈ event.input?, input.orderId ∉ orders)
    (hclear : Clear frameUid blockId t event) : Guarded frameUid blockId t event := by
  cases event with
  | message m =>
      cases m with
      | batchOrderBegin source =>
          exact h.guarded_of_inserted rfl List.prefix_rfl
            (fun i hi => absurd hi List.not_mem_nil) trivial
      | orderInput source input => exact h.guarded_orderInput (hid input rfl) hclear
      | batchOrderEnd source => exact h.guarded_batchOrderEnd hclear
  | cancel source orderId =>
      exact h.guarded_of_inserted rfl List.prefix_rfl (fun i hi => absurd hi List.not_mem_nil) trivial
  | blockMessage source blockId =>
      exact h.guarded_of_inserted rfl List.prefix_rfl (fun i hi => absurd hi List.not_mem_nil) trivial

/-- The orders that were read are in the index of the test. -/
theorem indexed_foldl_readWritten (written : List JournalFrame) (t : Trader TraderSim)
    (h : ∀ orderId state, t.orders.lookup orderId = some state →
      orderId ∈ t.mapExInstrumentToOrderIds (state.data.exchangeId ++ state.data.instrumentId)) :
    ∀ orderId state, (written.foldl Trader.readWritten t).orders.lookup orderId = some state →
      orderId ∈ (written.foldl Trader.readWritten t).mapExInstrumentToOrderIds
        (state.data.exchangeId ++ state.data.instrumentId) := by
  induction written generalizing t with
  | nil => exact h
  | cons frame written ih =>
      rw [List.foldl_cons]
      apply ih
      intro orderId state hstate
      unfold Trader.readWritten at hstate ⊢
      cases hframe : frame.orderState? with
      | none =>
          simp only [hframe] at hstate ⊢
          exact h orderId state hstate
      | some read =>
          simp only [hframe] at hstate ⊢
          by_cases hid : orderId = read.data.orderId
          · subst hid
            rw [AList.lookup_insert] at hstate
            cases hstate
            simp
          · rw [AList.lookup_insert_ne hid] at hstate
            have hmem := h orderId state hstate
            rw [Function.update_apply]
            split
            · rename_i hkey
              rw [hkey] at hmem
              exact List.mem_cons_of_mem _ hmem
            · exact hmem

/-- Reading changes only the orders and the index. -/
theorem exists_foldl_readWritten (written : List JournalFrame) (t : Trader TraderSim) :
    ∃ orders index, written.foldl Trader.readWritten t =
      { t with orders := orders, mapExInstrumentToOrderIds := index } := by
  induction written generalizing t with
  | nil => exact ⟨t.orders, t.mapExInstrumentToOrderIds, rfl⟩
  | cons frame written ih =>
      rw [List.foldl_cons]
      obtain ⟨orders, index, heq⟩ := ih (t.readWritten frame)
      refine ⟨orders, index, heq.trans ?_⟩
      unfold Trader.readWritten
      split <;> rfl

theorem mirrors_start (mode : MatchMode) : Mirrors orders (start mode) := by
  refine ⟨wellKeyed_start mode, ?_, ?_, fun orderId _ => fresh_start mode orderId⟩
  · intro orderId order horder
    cases horder
  · intro orderId order horder
    rw [lastReported, (fresh_start mode orderId).reports] at horder
    cases horder

/-- After its recovery the test knows the orders that were recovered. -/
theorem knows_recovered (mode : MatchMode) (hasWriter : UInt32 → Bool)
    (written read : List JournalFrame) :
    Knows (recovered mode hasWriter written read).orders
      (recovered mode hasWriter written read) := by
  let empty : Trader TraderSim := Trader.start ∅ true (fun _ => []) hasWriter (start mode)
  have hrecovered : recovered mode hasWriter written read =
      { written.foldl Trader.readWritten empty with
        orders := Table.map (fun _ => Trader.recoverOrder)
          (written.foldl Trader.readWritten empty).orders } := rfl
  have hindexed := indexed_foldl_readWritten written empty (by
    intro orderId state hstate
    cases hstate)
  obtain ⟨orders, index, heq⟩ := exists_foldl_readWritten written empty
  rw [hrecovered]
  rw [heq] at hindexed ⊢
  refine ⟨rfl, rfl, fun orderId state hstate => ?_, mirrors_start mode, ?_⟩
  · rw [Table.lookup_map] at hstate
    obtain ⟨read, hread, rfl⟩ := Option.map_eq_some_iff.mp hstate
    have hmem := hindexed orderId read hread
    unfold Trader.recoverOrder
    split <;> exact hmem
  · intro source input hinput
    cases hinput

end Knows

/-- In a run of such events the test is enough: no order input is inserted that crosses an open
order, and none is refused that does not. -/
theorem guarded_of_run (frameUid : ℕ → UInt64) (blockId : OrderInput → UInt64) (mode : MatchMode)
    (hasWriter : UInt32 → Bool) (written read : List JournalFrame) (events : List TraderEvent)
    (hids : ∀ event ∈ events, ∀ input ∈ event.input?,
      input.orderId ∉ (recovered mode hasWriter written read).orders)
    (hclear : AlongM (stepEvent frameUid blockId) (Clear frameUid blockId)
      (recovered mode hasWriter written read) events) :
    AlongM (stepEvent frameUid blockId) (Guarded frameUid blockId)
      (recovered mode hasWriter written read) events :=
  (hclear.and_forall hids).alongM
    (fun _ _ _ hknows hsafe hok => Knows.stepEvent hknows hsafe.2 hok)
    (fun _ _ hknows hsafe => Knows.guarded hknows hsafe.2 hsafe.1)
    (knows_recovered mode hasWriter written read)

/-- An order to sell two lots of rb2410 that was recovered. -/
def exampleFrame : JournalFrame where
  source := 1
  dest := 7
  genTime := 0
  data := .order { orderFromInput exampleInput with
    orderId := 9
    externalOrderId := "9"
    side := .Sell
    limitPrice := 3600 }

/-- An order input is inserted below a recovered order, one above it is refused, and one comes out of
a batch. -/
def exampleEvents : List TraderEvent :=
  [.message (.orderInput 7 exampleInput),
    .message (.orderInput 7 { exampleInput with orderId := 2, limitPrice := 3700 }),
    .message (.batchOrderBegin 7),
    .message (.orderInput 7 { exampleInput with orderId := 3, side := .Sell, limitPrice := 3700 }),
    .message (.batchOrderEnd 7), .cancel 7 1]

theorem guarded_of_run_example :
    AlongM (stepEvent UInt64.ofNat fun _ => 0) (Guarded UInt64.ofNat fun _ => 0)
      (recovered .Pend (fun _ => true) [exampleFrame] []) exampleEvents :=
  @guarded_of_run UInt64.ofNat (fun _ => 0) .Pend (fun _ => true) [exampleFrame] [] exampleEvents
    (by decide) (by decide)

/-- An order input crosses the one before it, which is open, and is inserted. -/
theorem not_guarded_of_open :
    ¬ AlongM (stepEvent UInt64.ofNat fun _ => 0) (Guarded UInt64.ofNat fun _ => 0)
      (recovered .Pend (fun _ => true) [] [])
      [.message (.orderInput 7 { exampleInput with side := .Sell }),
        .message (.orderInput 7 { exampleInput with orderId := 2 })] := by
  rintro ⟨-, hguarded, -⟩
  refine hguarded.inserted [] { exampleInput with orderId := 2 } ⟨[], rfl⟩ _ rfl _
    ⟨1, rfl, rfl⟩ (by decide)

end TraderSim

end Kungfu.Broker
