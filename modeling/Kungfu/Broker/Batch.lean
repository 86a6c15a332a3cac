import Kungfu.Broker.TraderSim
import Kungfu.Logic.Run
import Mathlib.Data.List.Induction

/-!
# Batches of orders

The order inputs of a strategy wait while it is in a batch, and are inserted when the batch
ends.  The simulated trader does this unless order insertion throws on the way.  The CTP trader
keeps what the base class does at the end of a batch, which is nothing, and its order inputs are
dropped.
-/

namespace Kungfu.Broker

open Longfist Logic

/-! ## What should be inserted -/

/-- What waits for the end of the batch that a strategy is in, if it is in one. -/
abbrev Batch := Option (List OrderInput)

/-- What a handled message does to the batch of a strategy. -/
def Batch.after (source : UInt32) (batch : Batch) (entry : Entry) : Batch :=
  match entry.message with
  | .batchOrderBegin s => if s = source then some (batch.getD []) else batch
  | .orderInput s input =>
      if s = source ∧ !entry.refused then batch.map (· ++ [input]) else batch
  | .batchOrderEnd s => if s = source then none else batch

/-- The batch of a strategy after a history. -/
def batchOf (source : UInt32) (history : List Entry) : Batch :=
  history.foldl (Batch.after source) none

/-- The order inputs that should be inserted for a message after a history. -/
def due (history : List Entry) (entry : Entry) : List OrderInput :=
  match entry.message with
  | .batchOrderBegin _ => []
  | .orderInput source input =>
      if entry.refused ∨ (batchOf source history).isSome then [] else [input]
  | .batchOrderEnd source => (batchOf source history).getD []

/-- The order input of a strategy that is not refused. -/
def accepted (source : UInt32) (entry : Entry) : List OrderInput :=
  match entry.message with
  | .orderInput s input => if s = source ∧ !entry.refused then [input] else []
  | _ => []

/-- The order inputs that were inserted for a message of a strategy. -/
def insertedFor (source : UInt32) (entry : Entry) : List OrderInput :=
  if entry.message.source = source then entry.inserted else []

/-- Every entry meets a condition on the history before it. -/
abbrev Throughout (P : List Entry → Entry → Prop) : List Entry → List Entry → Prop :=
  Along (fun history entry => history ++ [entry]) P

/-- The order inputs of an entry are those that should be inserted. -/
def InsertsDue (history : List Entry) (entry : Entry) : Prop := entry.inserted = due history entry

/-- Every order input is inserted when it should be, and for each strategy the order inputs that
are not refused were inserted once and in their order, but for those of its open batch. -/
def Exact (entries : List Entry) : Prop :=
  Throughout InsertsDue [] entries ∧ ∀ source,
    entries.flatMap (insertedFor source) ++ (batchOf source entries).getD [] =
      entries.flatMap (accepted source)

section Spec

variable {source : UInt32} {history entries : List Entry} {entry : Entry}

@[simp] theorem batchOf_concat :
    batchOf source (history ++ [entry]) = (batchOf source history).after source entry := by
  simp [batchOf]

/-- What should be inserted for a message of a strategy comes out of its batch or of the message,
and the rest goes into its batch. -/
theorem due_append_after (source : UInt32) (history : List Entry) (entry : Entry) :
    (if entry.message.source = source then due history entry else []) ++
      ((batchOf source history).after source entry).getD [] =
    (batchOf source history).getD [] ++ accepted source entry := by
  unfold due Batch.after accepted
  cases entry.message with
  | batchOrderBegin s => by_cases hs : s = source <;> simp [hs, Message.source]
  | orderInput s input =>
      by_cases hs : s = source
      · subst hs
        cases hrefused : entry.refused <;> cases hbatch : batchOf s history <;>
          simp [Message.source, hbatch]
      · simp [hs, Message.source]
  | batchOrderEnd s =>
      by_cases hs : s = source
      · simp [hs, Message.source]
      · simp [hs, Message.source]

/-- What is inserted when it should be is inserted once. -/
theorem exact_iff_throughout : Exact entries ↔ Throughout InsertsDue [] entries := by
  refine ⟨And.left, fun h => ⟨h, fun source => ?_⟩⟩
  suffices hgen : ∀ history, Throughout InsertsDue history entries →
      (batchOf source history).getD [] ++ entries.flatMap (accepted source) =
        entries.flatMap (insertedFor source) ++ (batchOf source (history ++ entries)).getD [] from
    by simpa [batchOf] using (hgen [] h).symm
  clear h
  induction entries with
  | nil => simp
  | cons entry entries ih =>
      rintro history ⟨hdue, hrest⟩
      have hstep := due_append_after source history entry
      rw [← hdue, ← batchOf_concat] at hstep
      calc (batchOf source history).getD [] ++ (entry :: entries).flatMap (accepted source)
        _ = ((batchOf source history).getD [] ++ accepted source entry) ++
              entries.flatMap (accepted source) := by simp
        _ = insertedFor source entry ++ ((batchOf source (history ++ [entry])).getD [] ++
              entries.flatMap (accepted source)) := by rw [← hstep, insertedFor, List.append_assoc]
        _ = (entry :: entries).flatMap (insertedFor source) ++
              (batchOf source (history ++ entry :: entries)).getD [] := by
            rw [ih _ hrest]
            simp

end Spec

/-! ## What a trader keeps -/

section Track

variable {σ : Type} {S : Service σ} {t t' : Trader σ} {hasWriter : UInt32 → Bool}
  {history : List Entry} {message : Message} {source : UInt32} {input : OrderInput}

/-- The trader knows the batches of all strategies. -/
structure Tracks (hasWriter : UInt32 → Bool) (t : Trader σ) (history : List Entry) : Prop where
  writers : t.hasWriter = hasWriter
  status : ∀ source, (t.batchStatus source).getD false = (batchOf source history).isSome
  inputs : ∀ source, (t.orderInputs source).getD [] = (batchOf source history).getD []

/-- What the end of a batch must keep of the trader, whatever a broker does there. -/
structure Service.Keeps (S : Service σ) : Prop where
  refused : ∀ source t, (S.insertBatchOrders source t).refused = none
  outcome : ∀ source t t', (S.insertBatchOrders source t).outcome = .ok t' →
    t'.hasWriter = t.hasWriter ∧ t'.batchStatus = t.batchStatus ∧
      ∀ s ≠ source, t'.orderInputs s = t.orderInputs s

/-- What holds of the order inputs of a batch when it ends. -/
def EndsWell (P : UInt32 → List OrderInput → Prop) (history : List Entry) (entry : Entry) : Prop :=
  ∀ source, entry.message = .batchOrderEnd source → P source ((batchOf source history).getD [])

/-- The entry of a handled message. -/
def entryOf (message : Message) (r : Handled σ) : Entry := ⟨message, r.refused.isSome, r.inserted⟩

theorem tracks_start (orders : AList fun _ : UInt64 => OrderState) (selfDealDetect : Bool)
    (orderIds : String → List UInt64) (own : σ) :
    Tracks hasWriter (Trader.start orders selfDealDetect orderIds hasWriter own) [] :=
  ⟨rfl, fun _ => rfl, fun _ => rfl⟩

/-- A handled message leaves the trader with the batches after it. -/
theorem Tracks.handle (h : Tracks hasWriter t history) (hS : S.Keeps)
    (hok : (t.handle S message).outcome = .ok t') :
    Tracks hasWriter t' (history ++ [entryOf message (t.handle S message)]) := by
  cases message with
  | batchOrderBegin source =>
      cases hok
      refine ⟨h.writers, fun s => ?_, fun s => ?_⟩
      · by_cases hs : s = source
        · simp [hs, Batch.after, entryOf]
        · simp [hs, Ne.symm hs, Batch.after, entryOf, h.status]
      · by_cases hs : s = source
        · simp [hs, Batch.after, entryOf, h.inputs]
        · simp [Ne.symm hs, Batch.after, entryOf, h.inputs]
  | orderInput source input =>
      rw [Trader.handle] at hok ⊢
      by_cases hrisk : t.hasSelfDealRisk input = true
      · rw [Trader.handleOrderInput_of_risk hrisk] at hok ⊢
        by_cases hw : t.hasWriter source = true
        · simp only [hw, if_true, Except.ok.injEq] at hok
          subst hok
          exact ⟨h.writers, by simp [entryOf, Batch.after, h.status],
            by simp [entryOf, Batch.after, h.inputs]⟩
        · simp [hw] at hok
      · cases hstatus : (t.batchStatus source).getD false with
        | true =>
            have hopen := h.status source
            rw [hstatus] at hopen
            obtain ⟨held, hheld⟩ := Option.isSome_iff_exists.mp hopen.symm
            have hinputs := h.inputs source
            rw [hheld, Option.getD_some] at hinputs
            rw [Trader.handleOrderInput_of_open hrisk hstatus] at hok ⊢
            cases hok
            refine ⟨by simpa using h.writers, fun s => ?_, fun s => ?_⟩
            · by_cases hs : s = source
              · simp [hs, entryOf, Batch.after, hheld]
              · simp [hs, Ne.symm hs, entryOf, Batch.after, h.status]
            · by_cases hs : s = source
              · simp [hs, entryOf, Batch.after, hheld, hinputs]
              · simp [hs, Ne.symm hs, entryOf, Batch.after, h.inputs]
        | false =>
            have hclosed := h.status source
            rw [hstatus] at hclosed
            have hnone : batchOf source history = none := by simpa using hclosed.symm
            rw [Trader.handleOrderInput_of_closed hrisk hstatus] at hok ⊢
            obtain ⟨own, rfl⟩ := Trader.exists_of_insert hok
            refine ⟨by simpa using h.writers, fun s => ?_, fun s => ?_⟩
            · by_cases hs : s = source
              · simp [hs, entryOf, Batch.after, hnone]
              · simp [hs, Ne.symm hs, entryOf, Batch.after, h.status]
            · by_cases hs : s = source
              · simp [hs, entryOf, Batch.after, hnone, h.inputs]
              · simp [Ne.symm hs, entryOf, Batch.after, h.inputs]
  | batchOrderEnd source =>
      rw [Trader.handle, Trader.batchOrderEnd] at hok ⊢
      cases houtcome : (S.insertBatchOrders source (t.setBatchStatus source false)).outcome with
      | error fault =>
          rw [houtcome] at hok
          cases hok
      | ok u =>
          obtain ⟨hwriters, hstatus, hinputs⟩ := hS.outcome _ _ _ houtcome
          rw [houtcome] at hok
          cases hok
          refine ⟨hwriters.trans h.writers, fun s => ?_, fun s => ?_⟩
          · by_cases hs : s = source
            · simp [hs, hstatus, entryOf, Batch.after]
            · simp [hs, Ne.symm hs, hstatus, entryOf, Batch.after, h.status]
          · by_cases hs : s = source
            · simp [hs, entryOf, Batch.after]
            · simp [hs, Ne.symm hs, hinputs s hs, entryOf, Batch.after, h.inputs]

/-- What is inserted for a message is what should be, but for what a broker does at the end of a
batch. -/
theorem Tracks.insertsDue_iff (h : Tracks hasWriter t history) :
    InsertsDue history (entryOf message (t.handle S message)) ↔
      ∀ source, message = .batchOrderEnd source →
        (S.insertBatchOrders source (t.setBatchStatus source false)).inserted =
          (batchOf source history).getD [] := by
  cases message with
  | batchOrderBegin source => simp [InsertsDue, entryOf, due, Trader.handle, Trader.batchOrderBegin]
  | orderInput source input =>
      have hstatus' := h.status source
      by_cases hrisk : t.hasSelfDealRisk input = true
      · simp [InsertsDue, entryOf, due, Trader.handle, Trader.handleOrderInput_of_risk hrisk]
      · cases hstatus : (t.batchStatus source).getD false with
        | true =>
            rw [hstatus] at hstatus'
            simp [InsertsDue, entryOf, due, Trader.handle, ← hstatus',
              Trader.handleOrderInput_of_open hrisk hstatus]
        | false =>
            rw [hstatus] at hstatus'
            simp [InsertsDue, entryOf, due, Trader.handle, ← hstatus', Trader.insert,
              Trader.handleOrderInput_of_closed hrisk hstatus]
  | batchOrderEnd source =>
      simp [InsertsDue, entryOf, due, Trader.handle, Trader.batchOrderEnd]

/-- A run inserts what it should if and only if the ends of batches do. -/
theorem Tracks.throughout_iff (h : Tracks hasWriter t history) (hS : S.Keeps)
    {Inserts : UInt32 → List OrderInput → Prop}
    (hInserts : ∀ source t, t.hasWriter = hasWriter →
      ((S.insertBatchOrders source t).inserted = (t.orderInputs source).getD [] ↔
        Inserts source ((t.orderInputs source).getD []))) (messages : List Message) :
    Throughout InsertsDue history (t.run S messages) ↔
      Throughout (EndsWell Inserts) history (t.run S messages) := by
  induction messages generalizing t history with
  | nil => exact Iff.rfl
  | cons message messages ih =>
      rw [Trader.run]
      refine and_congr ?_ ?_
      · refine h.insertsDue_iff.trans (forall_congr' fun source => imp_congr_right fun _ => ?_)
        have hends := hInserts source (t.setBatchStatus source false) h.writers
        simpa [h.inputs] using hends
      · cases hok : (t.handle S message).outcome with
        | error fault => exact Iff.rfl
        | ok t' => exact ih (h.handle hS hok)

end Track

/-! ## The traders of the repository -/

section Services

variable {source : UInt32} {input : OrderInput}

theorem keeps_ctpService (ret : OrderInput → Int32) : (ctpService ret).Keeps :=
  ⟨fun _ _ => rfl, by rintro source t t' ⟨⟩; exact ⟨rfl, rfl, fun _ _ => rfl⟩⟩

/-- Order insertion does not throw: there is a writer to the strategy, and the instrument has a
type. -/
def Insertable (hasWriter : UInt32 → Bool) (source : UInt32) (input : OrderInput) : Prop :=
  hasWriter source = true ∧
    (Wingchun.getInstrumentType input.exchangeId input.instrumentId).isOk = true

namespace TraderSim

variable {frameUid : ℕ → UInt64} {blockId : OrderInput → UInt64} {t t' : Trader TraderSim}

theorem isOk_insertOrder {hasWriter : UInt32 → Bool} {s : TraderSim} :
    (insertOrder frameUid blockId hasWriter source input s).isOk = true ↔
      Insertable hasWriter source input := by
  unfold insertOrder Insertable
  cases hasWriter source with
  | false => simp [Except.isOk, Except.toBool]
  | true =>
      cases Wingchun.getInstrumentType input.exchangeId input.instrumentId with
      | error fault => simp [Except.isOk, Except.toBool, bind, Except.bind]
      | ok type => simp [Except.isOk, Except.toBool, bind, Except.bind, pure, Except.pure]

theorem isOk_insert (t : Trader TraderSim) (input : OrderInput) :
    (t.insert (insertion frameUid blockId) source input).outcome.isOk = true ↔
      Insertable t.hasWriter source input := by
  have hinsertable : (insertOrder frameUid blockId t.hasWriter source input t.own).isOk = true ↔ _ :=
    isOk_insertOrder
  rw [← hinsertable]
  have houtcome : (t.insert (insertion frameUid blockId) source input).outcome =
      insertOrder frameUid blockId t.hasWriter source input t.own >>= fun own =>
        .ok { t with own := own } := rfl
  rw [houtcome]
  cases insertOrder frameUid blockId t.hasWriter source input t.own <;> rfl

/-- The loop inserts all if insertion throws at the last at most. -/
theorem inserted_insertAll (inputs : List OrderInput) :
    (insertAll (insertion frameUid blockId) source inputs t).inserted = inputs ↔
      ∀ input ∈ inputs.dropLast, Insertable t.hasWriter source input := by
  induction inputs generalizing t with
  | nil => simp [insertAll]
  | cons input inputs ih =>
      rw [insertAll]
      have hok : (t.insert (insertion frameUid blockId) source input).outcome.isOk = true ↔ _ :=
        isOk_insert t input
      cases hinsert : (t.insert (insertion frameUid blockId) source input).outcome with
      | error fault =>
          rw [hinsert] at hok
          have hnot : ¬ Insertable t.hasWriter source input := by
            rw [← hok]
            exact Bool.false_ne_true
          cases inputs with
          | nil => simp
          | cons next rest => simp [hnot]
      | ok t' =>
          rw [hinsert] at hok
          have hinput : Insertable t.hasWriter source input := hok.mp rfl
          obtain ⟨own, rfl⟩ := Trader.exists_of_insert hinsert
          rw [List.cons.injEq, ih]
          cases inputs with
          | nil => simp
          | cons next rest => simp [hinput]

/-- The loop changes only what the trader keeps for itself. -/
theorem insertAll_outcome {inputs : List OrderInput}
    (h : (insertAll (insertion frameUid blockId) source inputs t).outcome = .ok t') :
    ∃ own, t' = { t with own := own } := by
  induction inputs generalizing t with
  | nil =>
      cases h
      exact ⟨_, rfl⟩
  | cons input inputs ih =>
      rw [insertAll] at h
      cases hinsert : (t.insert (insertion frameUid blockId) source input).outcome with
      | error fault =>
          rw [hinsert] at h
          cases h
      | ok u =>
          rw [hinsert] at h
          obtain ⟨own, rfl⟩ := Trader.exists_of_insert hinsert
          exact ih (t := { t with own := own }) h

theorem refused_insertAll (inputs : List OrderInput) :
    (insertAll (insertion frameUid blockId) source inputs t).refused = none := by
  cases inputs with
  | nil => rfl
  | cons input inputs =>
      rw [insertAll]
      cases (t.insert (insertion frameUid blockId) source input).outcome <;> rfl

theorem inserted_insertBatchOrders :
    (insertBatchOrders (insertion frameUid blockId) source t).inserted =
        (t.orderInputs source).getD [] ↔
      ∀ input ∈ ((t.orderInputs source).getD []).dropLast, Insertable t.hasWriter source input := by
  unfold insertBatchOrders
  cases t.orderInputs source with
  | none => simp
  | some inputs => exact inserted_insertAll inputs

theorem keeps_service : (service frameUid blockId).Keeps := by
  constructor
  · intro source t
    simp only [service, insertBatchOrders]
    cases t.orderInputs source with
    | none => rfl
    | some inputs => exact refused_insertAll inputs
  · intro source t t' h
    simp only [service, insertBatchOrders] at h
    cases hinputs : t.orderInputs source with
    | none =>
        simp only [hinputs] at h
        cases h
        exact ⟨rfl, rfl, fun _ _ => rfl⟩
    | some inputs =>
        simp only [hinputs] at h
        cases hall : (insertAll (insertion frameUid blockId) source inputs t).outcome with
        | error fault =>
            rw [hall] at h
            cases h
        | ok u =>
            rw [hall] at h
            cases h
            obtain ⟨own, rfl⟩ := insertAll_outcome hall
            exact ⟨rfl, rfl, fun s hs => Function.update_of_ne hs ..⟩

end TraderSim

end Services

section Main

variable (orders : AList fun _ : UInt64 => OrderState) (selfDealDetect : Bool)
  (orderIds : String → List UInt64) (hasWriter : UInt32 → Bool) (messages : List Message)

end Main

/-- A CTP trader that is ready. -/
def exampleTrader : Trader (Ctp.Trader Details) :=
  .start ∅ false (fun _ => []) (fun _ => true) {
    api := true
    loggedIn := true
    ready := true
    frontId := 1
    sessionId := 1
    orderRefCounter := 0
    orderIdToRefInfo := fun _ => none
    refToOrderId := fun _ => none
    queryInFlight := false
    tasks := []
    pending := []
    writers := [7, PUBLIC]
    hasPublic := by simp }

end Kungfu.Broker
