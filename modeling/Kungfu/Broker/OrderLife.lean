import Kungfu.Broker.TraderSim
import Kungfu.Logic.Run
import Mathlib.Algebra.BigOperators.Ring.Finset
import Mathlib.Algebra.Group.Action.Defs
import Mathlib.Algebra.Order.BigOperators.Group.List

/-!
# The life of an order at the simulated trader

An order is matched when it comes: an order is reported, then the trades for what is traded at once.
If it is kept, a cancellation reports its end.  An order that is refused is reported once.
-/

namespace Kungfu.Broker

open Longfist Wingchun Logic

/-- What the simulated trader is given. -/
inductive SimEvent
  | insert (source : UInt32) (input : OrderInput)
  | cancel (source : UInt32) (orderId : UInt64)
  | blockMessage (blockId : UInt64)

namespace TraderSim

section

variable (frameUid : ℕ → UInt64) (blockId : OrderInput → UInt64) (hasWriter : UInt32 → Bool)

def handle (s : TraderSim) : SimEvent → Except Fault TraderSim
  | .insert source input => insertOrder frameUid blockId hasWriter source input s
  | .cancel source orderId => cancelOrder hasWriter source orderId s
  | .blockMessage blockId => .ok { s with blockIds := blockId :: s.blockIds }

def handleAll (events : List SimEvent) (s : TraderSim) : Except Fault TraderSim :=
  events.foldlM (handle frameUid blockId hasWriter) s

end

/-- What was reported of an order. -/
def reports (s : TraderSim) (orderId : UInt64) : List (Record Details) :=
  (s.written.map (·.2)).filter (Record.orderId · = orderId)

/-- A trader that has started. -/
def start (matchMode : MatchMode) : TraderSim where
  matchMode := matchMode
  orders := fun _ => none
  blockIds := []
  written := []

end TraderSim

/-! ## Stages of an order -/

def recordTrade? : Record Details → Option (Trade Details)
  | .trade t => some t
  | .order _ => none

def recordOrder? : Record Details → Option Order
  | .order o => some o
  | .trade _ => none

/-- The volume of the trades among some records. -/
def tradesVolume (records : List (Record Details)) : ℤ :=
  ((records.filterMap recordTrade?).map fun t => t.volume.toInt).sum

/-- An order as it was matched, with its trades. -/
structure Matched (input : OrderInput) (order : Order) (trades : List (Trade Details)) : Prop where
  orderId : order.orderId = input.orderId
  volume : order.volume = input.volume
  positive : 0 < order.volume.toInt
  nonneg : 0 ≤ order.volumeLeft.toInt
  le_volume : order.volumeLeft.toInt ≤ order.volume.toInt
  traded : (trades.map fun t => t.volume.toInt).sum = order.volume.toInt - order.volumeLeft.toInt
  filled : order.status = .Filled ↔ order.volumeLeft = 0
  refused : order.status = .Error → order.volumeLeft = order.volume

/-- How far an order is: the order that is kept, and the reports.  Its block message may have been
missing only if `missing` is true, and it may be cancelled when it is final only if `late` is. -/
inductive Stage (missing late : Prop) (input : OrderInput) :
    Option Order → List (Record Details) → Prop
  | refused (order : Order) (hstatus : order.status = .Error) (hvolume : order.volume = input.volume)
      (hleft : order.volumeLeft = order.volume) : Stage missing late input none [.order order]
  | blocked (order : Order) (hstatus : order.status = .Error) (hmissing : missing) :
      Stage missing late input none [.order order]
  | kept (order : Order) (trades : List (Trade Details)) (hmatched : Matched input order trades) :
      Stage missing late input (some order) (.order order :: trades.map .trade)
  | through (order : Order) (trades : List (Trade Details)) (hmatched : Matched input order trades)
      (hleft : order.volumeLeft = 0) :
      Stage missing late input none (.order order :: trades.map .trade)
  | cancelled (order : Order) (trades : List (Trade Details)) (status : OrderStatus)
      (hmatched : Matched input order trades) (hleft : order.volumeLeft ≠ 0)
      (hstatus : status = .Cancelled ∨ status = .PartialFilledNotActive)
      (hlate : isFinalStatus order.status → late) :
      Stage missing late input none
        (.order order :: trades.map .trade ++ [.order { order with status := status }])

/-! ## What is to hold of the reports -/

/-- Reports of an order that balance. -/
structure LifeCycle (input : OrderInput) (reports : List (Record Details)) : Prop where
  volume : ∀ order, .order order ∈ reports → order.volume = input.volume
  nonneg : 0 ≤ input.volume.toInt → ∀ order, .order order ∈ reports → 0 ≤ order.volumeLeft.toInt
  le_volume : ∀ order, .order order ∈ reports → order.volumeLeft.toInt ≤ order.volume.toInt
  /-- What the last order leaves is what was not traded. -/
  balance : ∀ order ∈ (reports.filterMap recordOrder?).getLast?,
    order.volumeLeft.toInt = order.volume.toInt - tradesVolume reports
  filled : ∀ order, .order order ∈ reports →
    (order.status = .Filled ↔ order.volumeLeft = 0 ∧ order.volume ≠ 0)
  refused : ∀ order, .order order ∈ reports → order.status = .Error →
    order.volumeLeft = order.volume
  negative : input.volume.toInt < 0 → ∀ order, .order order ∈ reports → order.status = .Error

/-- After a final order come at most the trades of the same insertion. -/
def EndsOnce (reports : List (Record Details)) : Prop :=
  ∀ before order after, reports = before ++ .order order :: after → isFinalStatus order.status →
    (∀ record ∈ after, (recordTrade? record).isSome) ∧ (before ≠ [] → after = [])

section Stages

variable {missing late : Prop} {input : OrderInput} {order : Order} {trades : List (Trade Details)}
  {held : Option Order} {reports : List (Record Details)}

theorem filterMap_recordTrade (trades : List (Trade Details)) :
    (trades.map Record.trade).filterMap recordTrade? = trades := by
  induction trades with
  | nil => rfl
  | cons t trades ih => exact congrArg (t :: ·) ih

theorem filterMap_recordOrder (trades : List (Trade Details)) :
    (trades.map Record.trade).filterMap recordOrder? = [] := by
  induction trades with
  | nil => rfl
  | cons t trades ih => exact ih

theorem mem_of_recordOrder {order : Order} (h : order ∈ reports.filterMap recordOrder?) :
    .order order ∈ reports := by
  obtain ⟨record, hmem, horder⟩ := List.mem_filterMap.mp h
  cases record with
  | order o =>
      cases horder
      exact hmem
  | trade t => cases horder

/-- Reports of an order that was placed, where every order leaves the same volume. -/
theorem Matched.lifeCycle (h : Matched input order trades)
    (horders : ∀ o, .order o ∈ reports →
      (o.volume = order.volume ∧ o.volumeLeft = order.volumeLeft) ∧
      (o.status = .Filled ↔ o.volumeLeft = 0) ∧ (o.status = .Error → o.volumeLeft = o.volume))
    (htrades : reports.filterMap recordTrade? = trades) : LifeCycle input reports := by
  constructor
  · intro o ho
    rw [(horders o ho).1.1, h.volume]
  · intro _ o ho
    rw [(horders o ho).1.2]
    exact h.nonneg
  · intro o ho
    rw [(horders o ho).1.1, (horders o ho).1.2]
    exact h.le_volume
  · intro o ho
    obtain ⟨⟨hvolume, hleft⟩, -⟩ := horders o (mem_of_recordOrder (List.mem_of_getLast? ho))
    rw [hvolume, hleft, tradesVolume, htrades, h.traded]
    omega
  · intro o ho
    have hvolume : order.volume ≠ 0 := by
      intro hzero
      have hpositive := h.positive
      rw [hzero] at hpositive
      cases hpositive
    rw [(horders o ho).2.1, (horders o ho).1.1]
    exact (and_iff_left hvolume).symm
  · exact fun o ho => (horders o ho).2.2
  · intro hnegative
    have hpositive := h.positive
    rw [h.volume] at hpositive
    omega

/-- The reports of an order balance, however far it is, unless its block message was missing. -/
theorem Stage.lifeCycle (h : Stage missing late input held reports) (hmissing : ¬ missing) :
    LifeCycle input reports := by
  cases h with
  | refused order hstatus hvolume hleft =>
      have horder : ∀ o, Record.order o ∈ [Record.order order] → o = order := by simp
      constructor
      · intro o ho
        rw [horder o ho, hvolume]
      · intro hnonneg o ho
        rw [horder o ho, hleft, hvolume]
        exact hnonneg
      · intro o ho
        rw [horder o ho, hleft]
      · intro o ho
        cases ho
        simp [tradesVolume, List.filterMap_cons, recordTrade?, hleft]
      · intro o ho
        rw [horder o ho, hstatus, hleft]
        exact ⟨fun h => (by cases h), fun h => absurd h.1 h.2⟩
      · intro o ho _
        rw [horder o ho, hleft]
      · intro _ o ho
        rw [horder o ho, hstatus]
  | blocked order hstatus h => exact absurd h hmissing
  | kept order trades hmatched =>
      apply hmatched.lifeCycle
      · intro o ho
        have heq : o = order := by simpa using ho
        rw [heq]
        exact ⟨⟨rfl, rfl⟩, hmatched.filled, hmatched.refused⟩
      · exact filterMap_recordTrade trades
  | through order trades hmatched hleft =>
      apply hmatched.lifeCycle
      · intro o ho
        have heq : o = order := by simpa using ho
        rw [heq]
        exact ⟨⟨rfl, rfl⟩, hmatched.filled, hmatched.refused⟩
      · exact filterMap_recordTrade trades
  | cancelled order trades status hmatched hleft hstatus hlate =>
      apply hmatched.lifeCycle
      · intro o ho
        have heq : o = order ∨ o = { order with status := status } := by simpa using ho
        rcases heq with rfl | rfl
        · exact ⟨⟨rfl, rfl⟩, hmatched.filled, hmatched.refused⟩
        · refine ⟨⟨rfl, rfl⟩, ⟨fun h => ?_, fun h => absurd h hleft⟩, fun h => ?_⟩
          · rcases hstatus with rfl | rfl <;> cases h
          · rcases hstatus with rfl | rfl <;> cases h
      · rw [List.cons_append, List.filterMap_cons]
        simp only [recordTrade?, List.filterMap_append, filterMap_recordTrade]
        exact List.append_nil _

/-- Only the last record is an order. -/
theorem eq_nil_of_trades_append {before after : List (Record Details)} {last o : Order}
    (h : trades.map Record.trade ++ [.order last] = before ++ .order o :: after) : after = [] := by
  induction trades generalizing before with
  | nil =>
      cases before with
      | nil => exact (List.cons.inj h).2.symm
      | cons b before => simpa using (List.cons.inj h).2
  | cons t trades ih =>
      cases before with
      | nil => cases (List.cons.inj h).1
      | cons b before => exact ih (List.cons.inj h).2

theorem endsOnce_trades (order : Order) (trades : List (Trade Details)) :
    EndsOnce (.order order :: trades.map .trade) := by
  intro before o after hreports _
  cases before with
  | nil =>
      obtain ⟨-, rfl⟩ := List.cons.inj hreports
      refine ⟨fun record hrecord => ?_, fun h => absurd rfl h⟩
      obtain ⟨t, -, rfl⟩ := List.mem_map.mp hrecord
      rfl
  | cons b before =>
      have hmem : Record.order o ∈ trades.map Record.trade := by
        rw [(List.cons.inj hreports).2]
        simp
      obtain ⟨t, -, ht⟩ := List.mem_map.mp hmem
      cases ht

/-- Nothing but its trades comes after a final order, unless an order is cancelled that is final. -/
theorem Stage.endsOnce (h : Stage missing late input held reports) (hlate : ¬ late) :
    EndsOnce reports := by
  cases h with
  | refused order => exact endsOnce_trades order []
  | blocked order => exact endsOnce_trades order []
  | kept order trades => exact endsOnce_trades order trades
  | through order trades => exact endsOnce_trades order trades
  | cancelled order trades status hmatched hleft hstatus hfinal =>
      intro before o after hreports ho
      rw [List.cons_append] at hreports
      cases before with
      | nil =>
          obtain ⟨heq, -⟩ := List.cons.inj hreports
          cases heq
          exact absurd (hfinal ho) hlate
      | cons b before =>
          have hnil := eq_nil_of_trades_append (List.cons.inj hreports).2
          exact ⟨by simp [hnil], fun _ => hnil⟩

theorem Stage.orderId_eq {order : Order} (h : Stage missing late input held reports)
    (horder : held = some order) : order.orderId = input.orderId := by
  cases h with
  | kept order trades hmatched =>
      cases horder
      exact hmatched.orderId
  | _ => cases horder

/-- An order that has nothing left is dropped when it is cancelled. -/
theorem Stage.through_of_zero (h : Stage missing late input held reports)
    (hzero : ∀ o, held = some o → o.volumeLeft = 0) : Stage missing late input none reports := by
  cases h with
  | refused order hstatus hvolume hleft => exact .refused order hstatus hvolume hleft
  | blocked order hstatus hmissing => exact .blocked order hstatus hmissing
  | kept order trades hmatched => exact .through order trades hmatched (hzero order rfl)
  | through order trades hmatched hleft => exact .through order trades hmatched hleft
  | cancelled order trades status hmatched hleft hstatus hlate =>
      exact .cancelled order trades status hmatched hleft hstatus hlate

theorem Stage.mono {missing' : Prop} (h : Stage missing late input held reports)
    (hmono : missing → missing') : Stage missing' late input held reports := by
  cases h with
  | refused order hstatus hvolume hleft => exact .refused order hstatus hvolume hleft
  | blocked order hstatus hmissing => exact .blocked order hstatus (hmono hmissing)
  | kept order trades hmatched => exact .kept order trades hmatched
  | through order trades hmatched hleft => exact .through order trades hmatched hleft
  | cancelled order trades status hmatched hleft hstatus hlate =>
      exact .cancelled order trades status hmatched hleft hstatus hlate

/-- The status of an order that is cancelled. -/
def cancelledStatus (order : Order) : OrderStatus :=
  if order.volume - order.volumeLeft = 0 then .Cancelled else .PartialFilledNotActive

/-- The end of an order that is kept is reported when it is cancelled. -/
theorem Stage.cancel {order : Order} (h : Stage missing late input held reports)
    (horder : held = some order) (hleft : order.volumeLeft ≠ 0) (hlate : isFinalStatus order.status → late) :
    Stage missing late input none
      (reports ++ [.order { order with status := cancelledStatus order }]) := by
  cases h with
  | kept order' trades hmatched =>
      cases horder
      refine .cancelled order trades _ hmatched hleft ?_ hlate
      unfold cancelledStatus
      split
      · exact .inl rfl
      · exact .inr rfl
  | _ => cases horder

end Stages

/-! ## What the trader does -/

namespace TraderSim

section Trades

theorem sum_slices (minVolume volume : ℕ) : (slices minVolume volume).sum = volume := by
  have hdiv := Nat.div_add_mod volume minVolume
  rw [Nat.mul_comm] at hdiv
  rw [slices, List.sum_append, List.sum_replicate, smul_eq_mul]
  split
  · rename_i hmod
    rw [List.sum_nil]
    omega
  · rw [List.sum_singleton]
    exact hdiv

/-- The trades add up to what is traded. -/
theorem sum_tradeVolumes (mode : MatchMode) (minVolume : ℤ) {traded : ℤ} (hnonneg : 0 ≤ traded) :
    (tradeVolumes mode minVolume traded).sum = traded := by
  unfold tradeVolumes
  split
  · rename_i hle
    exact (le_antisymm hle hnonneg).symm
  · split
    · have hcast : (slices minVolume.toNat traded.toNat).map Int.ofNat =
          (slices minVolume.toNat traded.toNat).map ((↑) : ℕ → ℤ) := rfl
      rw [hcast, ← Nat.cast_list_sum, sum_slices, Int.toNat_of_nonneg hnonneg]
    · simp

theorem nonneg_of_mem_tradeVolumes {mode : MatchMode} {minVolume traded v : ℤ}
    (hv : v ∈ tradeVolumes mode minVolume traded) : 0 ≤ v := by
  unfold tradeVolumes at hv
  split at hv
  · cases hv
  · split at hv
    · obtain ⟨n, -, rfl⟩ := List.mem_map.mp hv
      exact Int.natCast_nonneg n
    · rw [List.mem_singleton.mp hv]
      omega

/-- Volumes of trades are volumes that an order can have. -/
theorem map_toInt_tradeVolumes {mode : MatchMode} {minVolume traded : ℤ} (hnonneg : 0 ≤ traded)
    (hle : traded < 9223372036854775808) :
    ((tradeVolumes mode minVolume traded).map fun v => (Int64.ofInt v).toInt) =
      tradeVolumes mode minVolume traded := by
  conv_rhs => rw [← List.map_id (tradeVolumes mode minVolume traded)]
  apply List.map_congr_left
  intro v hv
  have hpos := nonneg_of_mem_tradeVolumes hv
  have hsum := List.single_le_sum (fun v hv => nonneg_of_mem_tradeVolumes hv) v hv
  rw [sum_tradeVolumes mode minVolume hnonneg] at hsum
  rw [Int64.toInt_ofInt_of_le (by omega) (by omega)]
  rfl

/-- How an order of the least volume or more is matched. -/
theorem matchOrder_spec (mode : MatchMode) {minVolume volume : ℤ} (hmin : 0 < minVolume)
    (hle : minVolume ≤ volume) :
    (0 ≤ (matchOrder mode minVolume volume).2 ∧ (matchOrder mode minVolume volume).2 ≤ volume) ∧
      ((matchOrder mode minVolume volume).1 = .Filled ↔
        (matchOrder mode minVolume volume).2 = volume) ∧
      ((matchOrder mode minVolume volume).1 = .Error →
        (matchOrder mode minVolume volume).2 = 0) := by
  cases mode <;> simp only [matchOrder] <;> try split
  all_goals
    simp
    try omega

/-- An order is kept, and it and its trades are written. -/
theorem accept_eq (frameUid : ℕ → UInt64) (source : UInt32) (order : Order) (volumes : List ℤ)
    (s : TraderSim) : ∃ trades : List (Trade Details),
      trades.map (fun t => t.volume.toInt) = volumes.map (fun v => (Int64.ofInt v).toInt) ∧
      (∀ t ∈ trades, t.orderId = order.orderId) ∧
      s.accept frameUid source order volumes = { s with
        orders := Function.update s.orders order.orderId (some order)
        written := s.written ++
          (Record.order order :: trades.map Record.trade).map (source, ·) } := by
  have hwrites : ∀ t : TraderSim, ∃ trades : List (Trade Details),
      trades.map (fun t => t.volume.toInt) = volumes.map (fun v => (Int64.ofInt v).toInt) ∧
      (∀ t ∈ trades, t.orderId = order.orderId) ∧
      volumes.foldl (fun s volume =>
        s.write source (.trade (tradeOf (frameUid s.written.length) order volume))) t =
          { t with written := t.written ++ (trades.map Record.trade).map (source, ·) } := by
    induction volumes with
    | nil => exact fun t => ⟨[], rfl, by simp, by simp⟩
    | cons v volumes ih =>
        intro t
        obtain ⟨trades, hvolumes, hids, heq⟩ :=
          ih (t.write source (.trade (tradeOf (frameUid t.written.length) order v)))
        refine ⟨tradeOf (frameUid t.written.length) order v :: trades, ?_, ?_, ?_⟩
        · simpa [tradeOf] using hvolumes
        · intro t' ht'
          rcases List.mem_cons.mp ht' with rfl | ht'
          · rfl
          · exact hids t' ht'
        · rw [List.foldl_cons, heq]
          simp [write]
  obtain ⟨trades, hvolumes, hids, heq⟩ := hwrites
    { s.write source (.order order) with
      orders := Function.update s.orders order.orderId (some order) }
  refine ⟨trades, hvolumes, hids, ?_⟩
  refine heq.trans ?_
  simp [write]

end Trades

section Steps

variable {frameUid : ℕ → UInt64} {blockId : OrderInput → UInt64} {hasWriter : UInt32 → Bool}
  {source : UInt32} {input : OrderInput} {s s' : TraderSim} {missing late : Prop}

theorem getMinVolume_pos (type : InstrumentType) : 0 < getMinVolume type := by
  unfold getMinVolume
  split <;> decide

/-- What is traded of an order at once, and what is left, is as its status says. -/
theorem matched_matchOrder {mode : MatchMode} {minVolume : ℤ} {order : Order}
    {trades : List (Trade Details)} (hmin : 0 < minVolume) (hvolume : minVolume ≤ input.volume.toInt)
    (hid : order.orderId = input.orderId) (hsame : order.volume = input.volume)
    (hstatus : order.status = (matchOrder mode minVolume input.volume.toInt).1)
    (hleft : order.volumeLeft =
      Int64.ofInt (input.volume.toInt - (matchOrder mode minVolume input.volume.toInt).2))
    (htrades : trades.map (fun t => t.volume.toInt) =
      (tradeVolumes mode minVolume (matchOrder mode minVolume input.volume.toInt).2).map
        fun v => (Int64.ofInt v).toInt) : Matched input order trades := by
  obtain ⟨⟨hnonneg, hle⟩, hfilled, herror⟩ := matchOrder_spec mode hmin hvolume
  have hbound := Int64.toInt_lt input.volume
  have hleft' : order.volumeLeft.toInt =
      input.volume.toInt - (matchOrder mode minVolume input.volume.toInt).2 := by
    rw [hleft]
    exact Int64.toInt_ofInt_of_le (by omega) (by omega)
  refine ⟨hid, hsame, ?_, ?_, ?_, ?_, ?_, fun hrefused => ?_⟩
  · rw [hsame]
    omega
  · omega
  · rw [hsame]
    omega
  · rw [htrades, map_toInt_tradeVolumes hnonneg (by omega), sum_tradeVolumes _ _ hnonneg, hsame]
    omega
  · rw [hstatus, hfilled, ← Int64.toInt_inj, hleft']
    change _ ↔ _ = 0
    omega
  · rw [← Int64.toInt_inj, hleft', herror (hstatus ▸ hrefused), hsame, sub_zero]

/-- An order input adds reports of its order, and the order may be kept. -/
theorem insertOrder_spec (late : Prop)
    (h : insertOrder frameUid blockId hasWriter source input s = .ok s') :
    ∃ held records, Stage (blockId input ≠ 0 ∧ blockId input ∉ s.blockIds) late input held records ∧
      (∀ record ∈ records, record.orderId = input.orderId) ∧
      s'.written = s.written ++ records.map (source, ·) ∧
      (∀ orderId, s'.orders orderId =
        if orderId = input.orderId ∧ held.isSome then held else s.orders orderId) := by
  unfold insertOrder at h
  split at h
  · cases h
  · obtain ⟨type, htype, h⟩ := Outcome.exists_of_bind h
    have hpos := getMinVolume_pos type
    dsimp only at h
    split at h
    · cases h
      refine ⟨none, _, .refused _ rfl rfl rfl, ?_, rfl, ?_⟩
      · simp [Record.orderId, orderFromInput]
      · simp [reject, write]
    · split at h
      · cases h
        refine ⟨none, _, .refused _ rfl rfl rfl, ?_, rfl, ?_⟩
        · simp [Record.orderId, orderFromInput]
        · simp [reject, write]
      · rename_i hvolume
        split at h
        · rename_i hmissing
          cases h
          refine ⟨none, _, .blocked _ rfl hmissing, ?_, rfl, ?_⟩
          · simp [Record.orderId, orderFromInput]
          · simp [reject, write]
        · set traded := (matchOrder s.matchMode (getMinVolume type) input.volume.toInt).2
          let order : Order := { orderFromInput input with
            externalOrderId := toString input.orderId
            instrumentType := type
            status := (matchOrder s.matchMode (getMinVolume type) input.volume.toInt).1
            errorMsg := if s.matchMode = .Reject then "rejected by sim" else ""
            volumeLeft := Int64.ofInt (input.volume.toInt - traded) }
          obtain ⟨trades, hvolumes, hids, heq⟩ := accept_eq frameUid source order
            (tradeVolumes s.matchMode (getMinVolume type) traded) s
          have hmatched : Matched input order trades :=
            matched_matchOrder hpos (not_lt.mp hvolume) rfl rfl rfl rfl hvolumes
          have hs' : s' = s.accept frameUid source order
              (tradeVolumes s.matchMode (getMinVolume type) traded) := (Except.ok.inj h).symm
          rw [hs', heq]
          refine ⟨some order, _, .kept order trades hmatched, ?_, rfl, ?_⟩
          · intro record hrecord
            rcases List.mem_cons.mp hrecord with rfl | hrecord
            · rfl
            · obtain ⟨t, ht, rfl⟩ := List.mem_map.mp hrecord
              exact hids t ht
          · intro orderId
            by_cases hid : orderId = input.orderId
            · subst hid
              simp [order, orderFromInput]
            · rw [if_neg (by simp [hid])]
              exact Function.update_of_ne hid ..

/-- A cancellation reports the end of an order that is kept and has a volume left, and the order is
not kept any more. -/
theorem cancelOrder_spec {orderId : UInt64}
    (h : cancelOrder hasWriter source orderId s = .ok s') :
    (∀ id, s'.orders id = if id = orderId then none else s.orders id) ∧
      ((s'.written = s.written ∧ ∀ o, s.orders orderId = some o → o.volumeLeft = 0) ∨
        ∃ order, s.orders orderId = some order ∧ order.volumeLeft ≠ 0 ∧
          s'.written = s.written ++
            [Record.order { order with status := cancelledStatus order }].map (source, ·)) := by
  unfold cancelOrder at h
  split at h
  · cases h
  · split at h
    · rename_i hnone
      cases h
      refine ⟨fun id => ?_, .inl ⟨rfl, fun o ho => by cases hnone.symm.trans ho⟩⟩
      split
      · rename_i hid
        rw [hid, hnone]
      · rfl
    · rename_i order horder
      dsimp only at h
      split at h
      · rename_i hzero
        cases h
        refine ⟨fun id => Function.update_apply .., .inl ⟨rfl, fun o ho => ?_⟩⟩
        cases horder.symm.trans ho
        exact hzero
      · rename_i hleft
        cases h
        exact ⟨fun id => Function.update_apply .., .inr ⟨order, horder, hleft, rfl⟩⟩

/-- Orders are kept under their own ids. -/
def WellKeyed (s : TraderSim) : Prop := ∀ id order, s.orders id = some order → order.orderId = id

theorem WellKeyed.handle {event : SimEvent} (hkeyed : WellKeyed s)
    (h : handle frameUid blockId hasWriter s event = .ok s') : WellKeyed s' := by
  intro id order horder
  cases event with
  | insert source input =>
      obtain ⟨held, records, hstage, -, -, horders⟩ := insertOrder_spec True h
      rw [horders] at horder
      split at horder
      · rename_i hid
        rw [hid.1]
        exact hstage.orderId_eq horder
      · exact hkeyed id order horder
  | cancel source orderId =>
      rw [(cancelOrder_spec h).1] at horder
      split at horder
      · cases horder
      · exact hkeyed id order horder
  | blockMessage blockId =>
      cases h
      exact hkeyed id order horder

theorem reports_append (orderId : UInt64) {records : List (Record Details)}
    (h : s'.written = s.written ++ records.map (source, ·)) :
    s'.reports orderId = s.reports orderId ++ records.filter (Record.orderId · = orderId) := by
  rw [reports, h, List.map_append, List.filter_append, List.map_map]
  simp [reports, Function.comp_def]

/-- Reports that are all about one order are appended to its reports. -/
theorem reports_append_own {orderId : UInt64} {records : List (Record Details)}
    (h : s'.written = s.written ++ records.map (source, ·)) (hids : ∀ r ∈ records, r.orderId = orderId) :
    s'.reports orderId = s.reports orderId ++ records := by
  rw [reports_append orderId h, List.filter_eq_self.mpr fun r hr => decide_eq_true (hids r hr)]

/-- The inputs among some events. -/
def input? : SimEvent → Option OrderInput
  | .insert _ input => some input
  | _ => none

/-- What an event is about. -/
def Concerns (orderId : UInt64) : SimEvent → Prop
  | .insert _ input => input.orderId = orderId
  | .cancel _ id => id = orderId
  | .blockMessage _ => False

/-- Nothing changes for the orders that an event is not about. -/
theorem handle_frame {event : SimEvent} {orderId : UInt64} (hkeyed : WellKeyed s)
    (hother : ¬ Concerns orderId event) (h : handle frameUid blockId hasWriter s event = .ok s') :
    s'.orders orderId = s.orders orderId ∧ s'.reports orderId = s.reports orderId := by
  cases event with
  | insert source input =>
      have hne : input.orderId ≠ orderId := hother
      obtain ⟨held, records, -, hids, hwritten, horders⟩ := insertOrder_spec True h
      have hnone : records.filter (Record.orderId · = orderId) = [] := by
        apply List.filter_eq_nil_iff.mpr
        intro record hrecord
        simpa [hids record hrecord] using hne
      refine ⟨?_, ?_⟩
      · rw [horders, if_neg fun h => hne h.1.symm]
      · rw [reports_append _ hwritten, hnone, List.append_nil]
  | cancel source id =>
      have hne : id ≠ orderId := hother
      obtain ⟨horders, hwritten⟩ := cancelOrder_spec h
      refine ⟨by rw [horders, if_neg hne.symm], ?_⟩
      rcases hwritten with ⟨hwritten, -⟩ | ⟨order, horder, -, hwritten⟩
      · rw [reports, hwritten]
        rfl
      · have hid := hkeyed id order horder
        rw [reports_append orderId hwritten, List.filter_cons_of_neg, List.filter_nil,
          List.append_nil]
        simpa [Record.orderId, hid] using hne
  | blockMessage blockId =>
      cases h
      exact ⟨rfl, rfl⟩

/-- An order input whose block message did not come. -/
def MissesBlock (blockId : OrderInput → UInt64) (orderId : UInt64) (s : TraderSim) :
    SimEvent → Prop
  | .insert _ input => input.orderId = orderId ∧ blockId input ≠ 0 ∧ blockId input ∉ s.blockIds
  | _ => False

instance (blockId : OrderInput → UInt64) (orderId : UInt64) (s : TraderSim) :
    DecidablePred (MissesBlock blockId orderId s)
  | .insert _ _ => inferInstanceAs (Decidable (_ ∧ _))
  | .cancel _ _ => isFalse id
  | .blockMessage _ => isFalse id

/-- A final order that has a volume left is cancelled. -/
def CancelsFinal (orderId : UInt64) (s : TraderSim) : SimEvent → Prop
  | .cancel _ id => id = orderId ∧
      ∃ order ∈ s.orders orderId, isFinalStatus order.status ∧ order.volumeLeft ≠ 0
  | _ => False

instance (orderId : UInt64) (s : TraderSim) : DecidablePred (CancelsFinal orderId s)
  | .cancel _ _ =>
      have : Decidable (∃ order ∈ s.orders orderId,
          isFinalStatus order.status = true ∧ order.volumeLeft ≠ 0) :=
        match h : s.orders orderId with
        | none => isFalse (by simp)
        | some order =>
            decidable_of_iff (isFinalStatus order.status = true ∧ order.volumeLeft ≠ 0) (by simp)
      inferInstanceAs (Decidable (_ ∧ _))
  | .insert _ _ => isFalse id
  | .blockMessage _ => isFalse id

/-- The order is not known. -/
structure Fresh (orderId : UInt64) (s : TraderSim) : Prop where
  orders : s.orders orderId = none
  reports : s.reports orderId = []

/-- An order is not known before it is inserted. -/
theorem Fresh.handle {event : SimEvent} {orderId : UInt64} (hfresh : Fresh orderId s)
    (hkeyed : WellKeyed s) (hother : ∀ i ∈ input? event, i.orderId ≠ orderId)
    (h : handle frameUid blockId hasWriter s event = .ok s') : Fresh orderId s' := by
  by_cases hconcerns : Concerns orderId event
  · cases event with
    | insert source i => exact absurd hconcerns (hother i rfl)
    | cancel source id =>
        cases hconcerns
        obtain ⟨horders, ⟨hwritten, -⟩ | ⟨order, horder, -⟩⟩ := cancelOrder_spec h
        · refine ⟨by rw [horders, if_pos rfl], ?_⟩
          rw [TraderSim.reports, hwritten]
          exact hfresh.reports
        · cases hfresh.orders.symm.trans horder
    | blockMessage blockId => exact hconcerns.elim
  · obtain ⟨horders, hreports⟩ := handle_frame hkeyed hconcerns h
    exact ⟨horders.trans hfresh.orders, hreports.trans hfresh.reports⟩

/-- An order that is inserted is at its first stage. -/
theorem Fresh.stage (hfresh : Fresh input.orderId s)
    (hmissing : MissesBlock blockId input.orderId s (.insert source input) → missing)
    (h : insertOrder frameUid blockId hasWriter source input s = .ok s') :
    Stage missing late input (s'.orders input.orderId) (s'.reports input.orderId) := by
  obtain ⟨held, records, hstage, hids, hwritten, horders⟩ := insertOrder_spec late h
  have hheld : s'.orders input.orderId = held := by
    rw [horders, hfresh.orders]
    cases held <;> simp
  rw [reports_append_own hwritten hids, hfresh.reports, hheld]
  exact hstage.mono fun h => hmissing ⟨rfl, h⟩

/-- An order that was inserted goes on to its next stage. -/
theorem stage_handle {event : SimEvent} (hkeyed : WellKeyed s)
    (hstage : Stage missing late input (s.orders input.orderId) (s.reports input.orderId))
    (hother : ∀ i ∈ input? event, i.orderId ≠ input.orderId)
    (hlate : CancelsFinal input.orderId s event → late)
    (h : handle frameUid blockId hasWriter s event = .ok s') :
    Stage missing late input (s'.orders input.orderId) (s'.reports input.orderId) := by
  by_cases hconcerns : Concerns input.orderId event
  · cases event with
    | insert source i => exact absurd hconcerns (hother i rfl)
    | cancel source orderId =>
        cases hconcerns
        obtain ⟨horders, hwritten⟩ := cancelOrder_spec h
        rw [horders, if_pos rfl]
        rcases hwritten with ⟨hwritten, hzero⟩ | ⟨order, horder, hleft, hwritten⟩
        · rw [reports, hwritten]
          exact hstage.through_of_zero hzero
        · have hown := hstage.orderId_eq horder
          have hreports := reports_append input.orderId hwritten
          rw [List.filter_cons_of_pos (by exact decide_eq_true hown)] at hreports
          rw [hreports]
          exact hstage.cancel horder hleft fun hfinal =>
            hlate ⟨rfl, order, horder, hfinal, hleft⟩
    | blockMessage blockId => exact hconcerns.elim
  · obtain ⟨horders, hreports⟩ := handle_frame hkeyed hconcerns h
    rw [horders, hreports]
    exact hstage

/-- What is asked of the events for one order. -/
def Allows (blockId : OrderInput → UInt64) (missing late : Prop) (orderId : UInt64) (s : TraderSim)
    (event : SimEvent) : Prop :=
  (MissesBlock blockId orderId s event → missing) ∧ (CancelsFinal orderId s event → late)

/-- An order is at some stage once it is inserted. -/
theorem stage_of_run {events : List SimEvent} (hkeyed : WellKeyed s)
    (hrun : handleAll frameUid blockId hasWriter events s = .ok s')
    (hids : ((events.filterMap input?).map (·.orderId)).Nodup)
    (hsafe : AlongM (handle frameUid blockId hasWriter) (Allows blockId missing late input.orderId)
      s events)
    (hinput : Fresh input.orderId s ∧ input ∈ events.filterMap input? ∨
      Stage missing late input (s.orders input.orderId) (s.reports input.orderId) ∧
        ∀ i ∈ events.filterMap input?, i.orderId ≠ input.orderId) :
    Stage missing late input (s'.orders input.orderId) (s'.reports input.orderId) := by
  induction events generalizing s with
  | nil =>
      cases hrun
      rcases hinput with ⟨-, hinput⟩ | ⟨hstage, -⟩
      · cases hinput
      · exact hstage
  | cons event events ih =>
      rw [handleAll, List.foldlM_cons] at hrun
      obtain ⟨t, hevent, hrun⟩ := Outcome.exists_of_bind hrun
      obtain ⟨⟨hmissing, hlate⟩, hrest⟩ := hsafe
      rw [hevent] at hrest
      have hkeyed' := hkeyed.handle hevent
      have hids' : ((events.filterMap input?).map (·.orderId)).Nodup := by
        refine hids.sublist (List.Sublist.map _ (List.Sublist.filterMap _ ?_))
        exact List.sublist_cons_self event events
      apply ih hkeyed' hrun hids' hrest
      rcases hinput with ⟨hfresh, hinput⟩ | ⟨hstage, hothers⟩
      · obtain ⟨e, he, hi⟩ := List.mem_filterMap.mp hinput
        rcases List.mem_cons.mp he with rfl | he
        · -- the order is inserted here
          cases e with
          | insert source i =>
              cases hi
              refine .inr ⟨hfresh.stage hmissing hevent, fun i hi heq => ?_⟩
              exact (List.nodup_cons.mp hids).1 (List.mem_map.mpr ⟨i, hi, heq⟩)
          | cancel source orderId => cases hi
          | blockMessage blockId => cases hi
        · have hlater : input ∈ events.filterMap input? := List.mem_filterMap.mpr ⟨e, he, hi⟩
          refine .inl ⟨hfresh.handle hkeyed (fun i hi heq => ?_) hevent, hlater⟩
          rw [List.filterMap_cons, show input? event = some i from hi] at hids
          exact (List.nodup_cons.mp hids).1 (List.mem_map.mpr ⟨input, hlater, heq.symm⟩)
      · refine .inr ⟨stage_handle hkeyed hstage (fun i hi => ?_) hlate hevent, fun i hi => ?_⟩
        · exact hothers i (List.mem_filterMap.mpr ⟨event, by simp, hi⟩)
        · obtain ⟨e, he, hi⟩ := List.mem_filterMap.mp hi
          exact hothers i (List.mem_filterMap.mpr ⟨e, List.mem_cons_of_mem _ he, hi⟩)

theorem wellKeyed_start (mode : MatchMode) : WellKeyed (start mode) := by
  intro id order horder
  cases horder

theorem fresh_start (mode : MatchMode) (orderId : UInt64) : Fresh orderId (start mode) :=
  ⟨rfl, rfl⟩

end Steps

/-- The reports of every order that is inserted balance, where its block message has come, and
where no final order is cancelled, nothing but its trades comes after it is final. -/
theorem lifeCycle_of_run (frameUid : ℕ → UInt64) (blockId : OrderInput → UInt64)
    (hasWriter : UInt32 → Bool) (mode : MatchMode) (events : List SimEvent) (s' : TraderSim)
    (source : UInt32) (input : OrderInput)
    (hrun : handleAll frameUid blockId hasWriter events (start mode) = .ok s')
    (hids : ((events.filterMap input?).map (·.orderId)).Nodup)
    (hinput : SimEvent.insert source input ∈ events) :
    (AlongM (handle frameUid blockId hasWriter)
        (fun s event => ¬ MissesBlock blockId input.orderId s event) (start mode) events →
      LifeCycle input (s'.reports input.orderId)) ∧
    (AlongM (handle frameUid blockId hasWriter)
        (fun s event => ¬ CancelsFinal input.orderId s event) (start mode) events →
      EndsOnce (s'.reports input.orderId)) := by
  have hmem : input ∈ events.filterMap input? := List.mem_filterMap.mpr ⟨_, hinput, rfl⟩
  have hstart := wellKeyed_start mode
  have hfresh := fresh_start mode input.orderId
  refine ⟨fun hblocks => ?_, fun hcancels => ?_⟩
  · have hsafe : AlongM (handle frameUid blockId hasWriter)
        (Allows blockId False True input.orderId) (start mode) events :=
      hblocks.mono fun _ _ h => ⟨h, fun _ => trivial⟩
    exact (stage_of_run hstart hrun hids hsafe (.inl ⟨hfresh, hmem⟩)).lifeCycle id
  · have hsafe : AlongM (handle frameUid blockId hasWriter)
        (Allows blockId True False input.orderId) (start mode) events :=
      hcancels.mono fun _ _ h => ⟨fun _ => trivial, h⟩
    exact (stage_of_run hstart hrun hids hsafe (.inl ⟨hfresh, hmem⟩)).endsOnce id

/-- An order that is filled in part and cancelled. -/
theorem lifeCycle_of_run_example : ∃ s',
    handleAll UInt64.ofNat (fun _ => 0) (fun _ => true) [.insert 7 exampleInput, .cancel 7 1]
        (start .PartialFill) = .ok s' ∧
      LifeCycle exampleInput (s'.reports exampleInput.orderId) ∧
      EndsOnce (s'.reports exampleInput.orderId) := by
  obtain ⟨s', hrun⟩ := Outcome.exists_of_isOk (x := handleAll UInt64.ofNat (fun _ => 0)
    (fun _ => true) [.insert 7 exampleInput, .cancel 7 1] (start .PartialFill)) (by decide)
  have h := @lifeCycle_of_run UInt64.ofNat (fun _ => 0) (fun _ => true) .PartialFill
    [.insert 7 exampleInput, .cancel 7 1] s' 7 exampleInput hrun (by decide) (by simp)
  exact ⟨s', hrun, h.1 (by decide), h.2 (by decide)⟩

/-- The trade of an order that is filled at once comes after the order. -/
theorem trade_after_final : ∃ s' order trade,
    handleAll UInt64.ofNat (fun _ => 0) (fun _ => true) [.insert 7 exampleInput] (start .Fill) =
        .ok s' ∧
      s'.reports exampleInput.orderId = [.order order, .trade trade] ∧
      isFinalStatus order.status = true :=
  ⟨_, _, _, rfl, rfl, rfl⟩

end TraderSim

end Kungfu.Broker
