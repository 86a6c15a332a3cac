import Kungfu.Broker.Trader
import Kungfu.Logic.Table
import Mathlib.Data.List.Induction

/-!
# Recovery of orders

When a trader starts, it goes through the journals of the day: through what it has written,
for the latest order of each id, and through what was written to it, for the order inputs.
Orders that the broker may not know are reported as lost.

An order is reported on the channel on which it was written last, and only if there is a writer
to it already; nothing is left for later.
-/

namespace Kungfu.Broker

open Longfist

/-- What a frame carries. -/
inductive FrameData
  | order (order : Order)
  | orderInput (input : OrderInput)
  | other

/-- A frame of the journals of the day. -/
structure JournalFrame where
  source : UInt32
  dest : UInt32
  genTime : Int64
  data : FrameData

/-- The entry of `orders_` that a frame makes. -/
def JournalFrame.orderState? (frame : JournalFrame) : Option OrderState :=
  match frame.data with
  | .order order => some ⟨frame.source, frame.dest, frame.genTime, order⟩
  | _ => none

/-- An order that is not over, and that the broker has not given an id. -/
def Unacknowledged (order : Order) : Prop :=
  isFinalStatus order.status = false ∧ order.externalOrderId = ""

instance : DecidablePred Unacknowledged := fun _ => inferInstanceAs (Decidable (_ ∧ _))

def lost (order : Order) : Order := { order with status := .Lost }

def OrderState.lost (state : OrderState) : OrderState := { state with data := Broker.lost state.data }

/-- A trader after its recovery, and what was written, by destination. -/
structure Recovered (σ : Type) where
  trader : Trader σ
  written : List (UInt32 × Order)

namespace Trader

variable {σ : Type}

/-- A frame that the trader has written is read. -/
def readWritten (t : Trader σ) (frame : JournalFrame) : Trader σ :=
  match frame.orderState? with
  | none => t
  | some state =>
      let key := state.data.exchangeId ++ state.data.instrumentId
      let orderIds := t.mapExInstrumentToOrderIds key
      { t with
        orders := t.orders.insert state.data.orderId state
        mapExInstrumentToOrderIds :=
          Function.update t.mapExInstrumentToOrderIds key (state.data.orderId :: orderIds) }

/-- What becomes of an order that is recovered. -/
def recoverOrder (state : OrderState) : OrderState :=
  if Unacknowledged state.data then state.lost else state

/-- An order is reported as lost, if it is and if there is a writer. -/
def reportLost (t : Trader σ) (state : OrderState) : List (UInt32 × Order) :=
  if Unacknowledged state.data ∧ t.hasWriter state.dest then [(state.dest, lost state.data)] else []

/-- `deal_write_frame`. -/
def dealWriteFrame (written : List JournalFrame) (t : Trader σ) : Recovered σ :=
  let t := written.foldl readWritten t
  ⟨{ t with orders := Table.map (fun _ => recoverOrder) t.orders },
    t.orders.entries.flatMap fun entry => t.reportLost entry.2⟩

/-- An order input without an order is reported as lost, if there is a writer. -/
def reportInput (t : Trader σ) (frame : JournalFrame) : List (UInt32 × Order) :=
  match frame.data with
  | .orderInput input =>
      if input.orderId ∉ t.orders ∧ t.hasWriter frame.source then
        [(frame.source, lost (orderFromInput input))]
      else []
  | _ => []

/-- `deal_read_frame`. -/
def dealReadFrame (read : List JournalFrame) (t : Trader σ) : List (UInt32 × Order) :=
  read.flatMap t.reportInput

/-- `recover`, from the journals that the trader has written and those that were written to it. -/
def recover (written read : List JournalFrame) (t : Trader σ) : Recovered σ :=
  if t.disableRecover then ⟨t, []⟩
  else
    let r := t.dealWriteFrame written
    { r with written := r.written ++ r.trader.dealReadFrame read }

end Trader

/-! ## What recovery is for -/

/-- The latest order of an id, with the channel it was written to. -/
def latest (written : List JournalFrame) (orderId : UInt64) : Option OrderState :=
  (written.filterMap JournalFrame.orderState?).reverse.find? fun state => state.data.orderId = orderId

/-- A strategy has placed an order. -/
def Placed (read : List JournalFrame) (source : UInt32) (input : OrderInput) : Prop :=
  ∃ frame ∈ read, frame.source = source ∧ frame.data = .orderInput input

/-- Every order input has an order, and every order that the broker may not know is lost, which is
reported to the strategy that placed it. -/
structure Settled {σ : Type} (written read : List JournalFrame) (r : Recovered σ) : Prop where
  recorded : ∀ source input, Placed read source input →
    input.orderId ∈ r.trader.orders ∨ ∃ w ∈ r.written, w.2.orderId = input.orderId
  isLost : ∀ orderId state, latest written orderId = some state → Unacknowledged state.data →
    ∃ s, r.trader.orders.lookup orderId = some s ∧ s.data.status = .Lost
  reported : ∀ source input state, Placed read source input →
    latest written input.orderId = some state → Unacknowledged state.data →
      (source, lost state.data) ∈ r.written

/-- Every order input without an order comes from a strategy to which there is a writer, or one
with its id does, and every order that the broker may not know was written last to the strategy
that placed it, to which there is a writer.  If recovery is disabled, there is no order input at
all, and no such order. -/
structure Reportable (disabled : Bool) (hasWriter : UInt32 → Bool)
    (written read : List JournalFrame) : Prop where
  inputs : ∀ source input, Placed read source input → latest written input.orderId = none →
    disabled = false ∧
      ∃ s i, Placed read s i ∧ i.orderId = input.orderId ∧ hasWriter s = true
  orders : ∀ orderId state, latest written orderId = some state → Unacknowledged state.data →
    disabled = false ∧ ∀ source input, Placed read source input → input.orderId = orderId →
      state.dest = source ∧ hasWriter source = true
  others : disabled = true → ∀ source input, ¬ Placed read source input

section

variable {σ : Type} {written read : List JournalFrame} {t : Trader σ} {orderId : UInt64}
  {state : OrderState} {w : UInt32 × Order}

theorem latest_concat (frame : JournalFrame) : latest (written ++ [frame]) orderId =
    match frame.orderState? with
    | some state => if state.data.orderId = orderId then some state else latest written orderId
    | none => latest written orderId := by
  unfold latest
  cases hstate : frame.orderState? with
  | none => simp [hstate]
  | some state =>
      by_cases h : state.data.orderId = orderId <;> simp [hstate, h]

theorem orderId_of_latest (h : latest written orderId = some state) :
    state.data.orderId = orderId := by
  simpa using List.find?_some h

namespace Trader

@[simp] theorem hasWriter_readWritten (frame : JournalFrame) :
    (t.readWritten frame).hasWriter = t.hasWriter := by
  unfold readWritten
  split <;> rfl

@[simp] theorem hasWriter_foldl_readWritten :
    (written.foldl readWritten t).hasWriter = t.hasWriter := by
  induction written generalizing t with
  | nil => rfl
  | cons frame frames ih => rw [List.foldl_cons, ih, hasWriter_readWritten]

/-- After what it has written, the trader has the latest order of each id. -/
theorem lookup_foldl_readWritten :
    (written.foldl readWritten { t with orders := ∅ }).orders.lookup orderId =
      latest written orderId := by
  induction written using List.reverseRecOn with
  | nil => rfl
  | append_singleton frames frame ih =>
      rw [List.foldl_concat, latest_concat, readWritten]
      cases frame.orderState? with
      | none => exact ih
      | some state =>
          by_cases h : state.data.orderId = orderId
          · simp [h]
          · simp [h, AList.lookup_insert_ne (Ne.symm h), ih]

theorem lookup_dealWriteFrame :
    (dealWriteFrame written { t with orders := ∅ }).trader.orders.lookup orderId =
      (latest written orderId).map recoverOrder := by
  simp [dealWriteFrame, lookup_foldl_readWritten]

/-- The orders that are reported when the trader has read what it has written. -/
theorem mem_written_dealWriteFrame :
    w ∈ (dealWriteFrame written { t with orders := ∅ }).written ↔
      ∃ orderId state, latest written orderId = some state ∧ Unacknowledged state.data ∧
        t.hasWriter state.dest = true ∧ w = (state.dest, lost state.data) := by
  simp only [dealWriteFrame, List.mem_flatMap, reportLost]
  constructor
  · rintro ⟨entry, hentry, hw⟩
    split at hw
    · rename_i h
      rw [AList.mem_lookup_iff.symm, Option.mem_def, lookup_foldl_readWritten] at hentry
      exact ⟨entry.1, entry.2, hentry, h.1, by simpa using h.2, by simpa using hw⟩
    · cases hw
  · rintro ⟨orderId, state, hlatest, hstate, hwriter, rfl⟩
    refine ⟨⟨orderId, state⟩, ?_, ?_⟩
    · rw [AList.mem_lookup_iff.symm, Option.mem_def, lookup_foldl_readWritten, hlatest]
    · simp [hstate, hwriter]

/-- The orders that are reported when the trader has read what was written to it. -/
theorem mem_dealReadFrame : w ∈ t.dealReadFrame read ↔ ∃ source input, Placed read source input ∧
    input.orderId ∉ t.orders ∧ t.hasWriter source = true ∧
      w = (source, lost (orderFromInput input)) := by
  simp only [dealReadFrame, List.mem_flatMap, reportInput]
  constructor
  · rintro ⟨frame, hframe, hw⟩
    cases hdata : frame.data with
    | orderInput input =>
        simp only [hdata] at hw
        split at hw
        · rename_i h
          exact ⟨frame.source, input, ⟨frame, hframe, rfl, hdata⟩, h.1, by simpa using h.2,
            by simpa using hw⟩
        · cases hw
    | order order => simp [hdata] at hw
    | other => simp [hdata] at hw
  · rintro ⟨source, input, ⟨frame, hframe, rfl, hdata⟩, hnotMem, hwriter, rfl⟩
    exact ⟨frame, hframe, by simp [hdata, hnotMem, hwriter]⟩

theorem mem_orders_dealWriteFrame :
    orderId ∈ (dealWriteFrame written { t with orders := ∅ }).trader.orders ↔
      latest written orderId ≠ none := by
  rw [← AList.lookup_isSome, lookup_dealWriteFrame, Option.isSome_map, Option.isSome_iff_ne_none]

/-- A disabled recovery achieves something only if there is nothing to recover. -/
theorem settled_disabled_iff (hdisabled : t.disableRecover = true) :
    Settled written read (recover written read { t with orders := ∅ }) ↔
      Reportable t.disableRecover t.hasWriter written read := by
  have hrecover : recover written read { t with orders := ∅ } = ⟨{ t with orders := ∅ }, []⟩ :=
    if_pos hdisabled
  rw [hrecover]
  constructor
  · intro h
    have hnone : ∀ source input, ¬ Placed read source input := by
      intro source input hplaced
      rcases h.recorded source input hplaced with hmem | ⟨w, hw, -⟩
      · exact AList.notMem_empty _ hmem
      · cases hw
    refine ⟨fun source input hplaced => absurd hplaced (hnone source input), ?_, fun _ => hnone⟩
    intro orderId state hlatest hstate
    obtain ⟨s, hs, -⟩ := h.isLost orderId state hlatest hstate
    cases hs
  · intro h
    refine ⟨fun source input hplaced => absurd hplaced (h.others hdisabled source input), ?_, ?_⟩
    · intro orderId state hlatest hstate
      have hfalse := (h.orders orderId state hlatest hstate).1
      simp [hdisabled] at hfalse
    · intro source input state hplaced
      exact absurd hplaced (h.others hdisabled source input)

/-- An enabled recovery reports what it can. -/
theorem settled_enabled_iff (hdisabled : t.disableRecover = false) :
    Settled written read (recover written read { t with orders := ∅ }) ↔
      Reportable t.disableRecover t.hasWriter written read := by
  have hrecover : recover written read { t with orders := ∅ } =
      let r := dealWriteFrame written { t with orders := ∅ }
      { r with written := r.written ++ r.trader.dealReadFrame read } :=
    if_neg (by simp [hdisabled])
  have hwriters : (dealWriteFrame written { t with orders := ∅ }).trader.hasWriter =
      t.hasWriter := by
    simp [dealWriteFrame]
  rw [hrecover]
  constructor
  · intro h
    refine ⟨fun source input hplaced hnone => ⟨hdisabled, ?_⟩, fun orderId state hlatest hstate =>
      ⟨hdisabled, fun source input hplaced hid => ?_⟩, fun htrue => by simp [hdisabled] at htrue⟩
    · rcases h.recorded source input hplaced with hmem | ⟨w, hw, hid⟩
      · exact absurd hnone (mem_orders_dealWriteFrame.mp hmem)
      · rcases List.mem_append.mp hw with hw | hw
        · obtain ⟨orderId, state, hlatest, -, -, rfl⟩ := mem_written_dealWriteFrame.mp hw
          have horderId : orderId = input.orderId := (orderId_of_latest hlatest).symm.trans hid
          rw [horderId, hnone] at hlatest
          cases hlatest
        · obtain ⟨s, i, hs, -, hwriter, rfl⟩ := mem_dealReadFrame.mp hw
          exact ⟨s, i, hs, hid, by rwa [← hwriters]⟩
    · subst hid
      rcases List.mem_append.mp (h.reported source input state hplaced hlatest hstate)
        with hw | hw
      · obtain ⟨orderId, state', hlatest', -, hwriter, heq⟩ := mem_written_dealWriteFrame.mp hw
        obtain ⟨hsource, hdata⟩ := Prod.mk.inj heq
        have hids : (lost state'.data).orderId = (lost state.data).orderId :=
          congrArg (fun order : Order => order.orderId) hdata.symm
        have horderId : orderId = input.orderId := by
          rw [← orderId_of_latest hlatest', ← orderId_of_latest hlatest]
          exact hids
        rw [horderId, hlatest] at hlatest'
        cases hlatest'
        exact ⟨hsource.symm, hsource ▸ hwriter⟩
      · obtain ⟨s, i, -, hnotMem, -, heq⟩ := mem_dealReadFrame.mp hw
        have hid : i.orderId = input.orderId := by
          rw [← orderId_of_latest hlatest]
          exact congrArg (fun w : UInt32 × Order => w.2.orderId) heq.symm
        rw [mem_orders_dealWriteFrame, hid, hlatest] at hnotMem
        exact absurd (Option.some_ne_none state) hnotMem
  · intro h
    refine ⟨fun source input hplaced => ?_, fun orderId state hlatest hstate => ?_,
      fun source input state hplaced hlatest hstate => ?_⟩
    · by_cases hnone : latest written input.orderId = none
      · obtain ⟨-, s, i, hs, hid, hwriter⟩ := h.inputs source input hplaced hnone
        refine .inr ⟨(s, lost (orderFromInput i)), List.mem_append_right _ ?_, hid⟩
        refine mem_dealReadFrame.mpr ⟨s, i, hs, ?_, by rwa [hwriters], rfl⟩
        rw [mem_orders_dealWriteFrame, hid]
        exact not_not.mpr hnone
      · exact .inl (mem_orders_dealWriteFrame.mpr hnone)
    · refine ⟨state.lost, ?_, rfl⟩
      rw [lookup_dealWriteFrame, hlatest, Option.map_some, recoverOrder, if_pos hstate]
    · obtain ⟨-, hreport⟩ := h.orders _ state hlatest hstate
      obtain ⟨hdest, hwriter⟩ := hreport source input hplaced rfl
      refine List.mem_append_left _ (mem_written_dealWriteFrame.mpr
        ⟨_, state, hlatest, hstate, ?_, ?_⟩)
      · rwa [hdest]
      · rw [hdest]

/-- After the recovery every order input has an order, and every order that is lost is reported
to the strategy that placed it, if and only if the last channel of each is that of its strategy
and there are writers to all of them. -/
theorem settled_recover_iff (t : Trader σ) (written read : List JournalFrame) :
    Settled written read (recover written read { t with orders := ∅ }) ↔
      Reportable t.disableRecover t.hasWriter written read := by
  by_cases hdisabled : t.disableRecover = true
  · exact settled_disabled_iff hdisabled
  · exact settled_enabled_iff (by simpa using hdisabled)

end Trader

end

/-- An order of the strategy 7, which is pending. -/
def exampleWritten (dest : UInt32) : JournalFrame := ⟨9, dest, 1, .order (orderFromInput exampleInput)⟩

/-- An order that was written to its strategy and then to everyone, as the CTP trader does, is
reported as lost to everyone alone. -/
theorem not_settled_of_public : ¬ Settled [exampleWritten 7, exampleWritten PUBLIC]
    [⟨7, 9, 0, .orderInput exampleInput⟩]
    (Trader.recover [exampleWritten 7, exampleWritten PUBLIC] [⟨7, 9, 0, .orderInput exampleInput⟩]
      (Trader.start ∅ false (fun _ => []) (fun _ => true) ())) := by
  intro h
  have hplaced : Placed [⟨7, 9, 0, .orderInput exampleInput⟩] 7 exampleInput :=
    ⟨_, List.mem_singleton_self _, rfl, rfl⟩
  have hreported := h.reported 7 exampleInput _ hplaced rfl ⟨rfl, rfl⟩
  have hdest := List.mem_map_of_mem (f := Prod.fst) hreported
  have hdests : (Trader.recover [exampleWritten 7, exampleWritten PUBLIC]
      [⟨7, 9, 0, .orderInput exampleInput⟩]
      (Trader.start ∅ false (fun _ => []) (fun _ => true) ())).written.map Prod.fst = [PUBLIC] := by
    decide
  rw [hdests] at hdest
  revert hdest
  decide

end Kungfu.Broker
