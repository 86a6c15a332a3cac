import Kungfu.Api.Orders

/-!
# Order entry of clients and of strategies

A strategy enters an order with typed fields; a client gives the same fields as JSON.  The type of
the instrument, which the service puts into the JSON as a number, is looked up among names when the
record is read, and the frozen price, which the client does not give, is zero.
-/

namespace Kungfu.Api

open Longfist Yijinjing Index Practice Logic

/-! ## Fields -/

/-- The fields of an order, whose texts fit in the record. -/
structure OrderFields where
  instrumentId : String
  exchangeId : String
  limitPrice : ℚ
  volume : Int64
  priceType : PriceType
  side : Side
  offset : Offset
  hedgeFlag : HedgeFlag
  fit : IdsFit exchangeId instrumentId

/-- How an enumerator is written in JSON. -/
inductive EnumForm
  | name | number
  deriving DecidableEq, Repr

namespace EnumForm

variable {α : Type} [DecidableEq α] (names : Json.EnumNames α)

def toJson (code : ℤ) (a : α) : EnumForm → Json
  | name => .string (names.name a)
  | number => .integer code

/-- What is read of an enumerator that is written in a form. -/
def read (a : α) : EnumForm → α
  | name => names.read (names.name a)
  | number => names.first.1

@[simp] theorem getEnum_toJson (form : EnumForm) (code : ℤ) (a : α) :
    Json.getEnum names (form.toJson names code a) = form.read names a := by
  cases form <;> rfl

end EnumForm

/-- The JSON in which a client gives the fields, with the account and, if it likes, the conditions of
volume and time. -/
def OrderFields.toJson (f : OrderFields) (form : EnumForm) (location : Json)
    (conditions : Option (VolumeCondition × TimeCondition)) : Json :=
  .object ([("location", location), ("exchange_id", .string f.exchangeId),
    ("instrument_id", .string f.instrumentId), ("limit_price", .float f.limitPrice),
    ("volume", .integer f.volume.toInt), ("side", form.toJson sideNames f.side.toInt f.side),
    ("offset", form.toJson offsetNames f.offset.ctorIdx f.offset),
    ("price_type", form.toJson priceTypeNames f.priceType.ctorIdx f.priceType),
    ("hedge_flag", form.toJson hedgeFlagNames f.hedgeFlag.ctorIdx f.hedgeFlag)] ++
    match conditions with
    | none => []
    | some (volumeCondition, timeCondition) =>
        [("volume_condition", form.toJson volumeConditionNames volumeCondition.ctorIdx volumeCondition),
          ("time_condition", form.toJson timeConditionNames timeCondition.ctorIdx timeCondition)])

/-! ## Strategies -/

/-- The order that `insert_order` sends and books for a strategy, in a frame that holds something
already: the conditions of volume and time are left as they are found. -/
def insertedOrder (ready : Bool) (frame : Input) (frameUid : UInt64) (insertTime : Int64)
    (isSwap : Bool) (blockId parentId : UInt64) (f : OrderFields) :
    Except Wingchun.Fault (Option Input) := do
  if ¬ ready then return none
  let instrumentType ← Wingchun.getInstrumentType f.exchangeId f.instrumentId
  if instrumentType = .Unknown then return none
  return some { frame with
    orderId := frameUid
    instrumentId := f.instrumentId
    exchangeId := f.exchangeId
    instrumentType := instrumentType
    limitPrice := f.limitPrice
    frozenPrice := f.limitPrice
    volume := f.volume
    priceType := f.priceType
    side := f.side
    parentId := parentId
    details := { frame.details with
      offset := f.offset
      hedgeFlag := f.hedgeFlag
      blockId := blockId
      isSwap := isSwap
      insertTime := insertTime } }

/-! ## The order of a client -/

/-- What is read of the conditions. -/
def readConditions (form : EnumForm) :
    Option (VolumeCondition × TimeCondition) → VolumeCondition × TimeCondition
  | none => (.Any, .IOC)
  | some (volumeCondition, timeCondition) =>
      (form.read volumeConditionNames volumeCondition, form.read timeConditionNames timeCondition)

/-- What the service makes of the fields. -/
def OrderFields.issued (f : OrderFields) (form : EnumForm)
    (conditions : Option (VolumeCondition × TimeCondition)) (orderId : UInt64) (insertTime : Int64) :
    Input where
  orderId := orderId
  parentId := 0
  instrumentId := f.instrumentId
  exchangeId := f.exchangeId
  instrumentType := .Unknown
  limitPrice := f.limitPrice
  frozenPrice := 0
  volume := f.volume
  side := form.read sideNames f.side
  priceType := form.read priceTypeNames f.priceType
  details := {
    isSwap := false
    offset := form.read offsetNames f.offset
    hedgeFlag := form.read hedgeFlagNames f.hedgeFlag
    volumeCondition := (readConditions form conditions).1
    timeCondition := (readConditions form conditions).2
    blockId := 0
    insertTime := insertTime }

section Issued

variable {s : ApiService} {f : OrderFields} {form : EnumForm} {location : Json}
  {conditions : Option (VolumeCondition × TimeCondition)} {instrumentType : InstrumentType}
  {fault : Wingchun.Fault}

/-- What is kept of the JSON, with the type of the instrument. -/
theorem setInstrumentType_toJson
    (htype : Wingchun.getInstrumentType f.exchangeId f.instrumentId = .ok instrumentType) :
    ApiService.setInstrumentType ((f.toJson form location conditions).erase "location") =
      .ok (((f.toJson form location conditions).erase "location").set "instrument_type"
        (.integer instrumentType.ctorIdx)) := by
  cases conditions <;>
    simp [ApiService.setInstrumentType, OrderFields.toJson, Json.erase, Json.contains, Json.member,
      Json.memberOrNull, List.lookup_cons, List.lookup_nil, textOf, restore, Json.getString, htype]

theorem setInstrumentType_toJson_error
    (htype : Wingchun.getInstrumentType f.exchangeId f.instrumentId = .error fault) :
    ApiService.setInstrumentType ((f.toJson form location conditions).erase "location") =
      .error "stoi" := by
  cases conditions <;>
    simp [ApiService.setInstrumentType, OrderFields.toJson, Json.erase, Json.contains, Json.member,
      Json.memberOrNull, List.lookup_cons, List.lookup_nil, textOf, restore, Json.getString, htype]

theorem copyText_of_fit {size : ℕ} {text : String} (h : text.utf8ByteSize < size)
    (hnull : text.toList.contains (Char.ofNat 0) = false) : copyText size text = .ok text := by
  rw [copyText, cStr_of_not_contains hnull, if_pos h]

/-- The record that is read from the JSON. -/
theorem parse_toJson (code : ℤ) :
    OrderInput.parse (ApiService.orderDefaults
      (((f.toJson form location conditions).erase "location").set "instrument_type"
        (.integer code))) = .ok (f.issued form conditions 0 0) := by
  have hexchange : copyText EXCHANGE_ID_LEN f.exchangeId = .ok f.exchangeId :=
    copyText_of_fit f.fit.1.1 f.fit.1.2
  have hinstrument : copyText INSTRUMENT_ID_LEN f.instrumentId = .ok f.instrumentId :=
    copyText_of_fit f.fit.2.1 f.fit.2.2
  have hzero : UInt64.ofInt 0 = 0 := by decide
  cases conditions <;>
    simp [OrderInput.parse, ApiService.orderDefaults, OrderFields.toJson, Json.setDefault, Json.set,
      Json.erase, Json.contains, Json.member, Json.memberOrNull, List.lookup_cons, List.lookup_nil,
      restore, restoreText, restoreEnum, Json.getUInt64, Json.getInt64, Json.getInt, Json.getRat, Json.getBool,
      Json.getString, Except.map, hexchange, hinstrument, OrderFields.issued,
      readConditions, hzero] <;>
    decide

end Issued

namespace ApiService

section Results

variable {s : ApiService} {homeMode : Mode} {location : Json} {account : Location}

/-- The order that the service sends and books for the fields. -/
theorem issuedOrder_toJson (f : OrderFields) (form : EnumForm)
    (conditions : Option (VolumeCondition × TimeCondition)) (frameUid : UInt64) (now : Int64)
    (hready : s.readyAccount homeMode (f.toJson form location conditions) = .ok account) :
    s.issuedOrder homeMode frameUid now (f.toJson form location conditions) =
      match Wingchun.getInstrumentType f.exchangeId f.instrumentId with
      | .error _ => .error (.exception "stoi")
      | .ok _ => .ok (account,
          f.issued form conditions (makeInstructionUid frameUid account.uid s.homeUid) now) := by
  rw [issuedOrder, hready, liftM_ok, Outcome.ok_bind]
  cases htype : Wingchun.getInstrumentType f.exchangeId f.instrumentId with
  | error fault =>
      rw [setInstrumentType_toJson_error htype]
      rfl
  | ok instrumentType =>
      rw [setInstrumentType_toJson htype, liftM_ok, Outcome.ok_bind, parse_toJson, Outcome.ok_bind]
      rfl

end Results

end ApiService

/-! ## Agreement -/

/-- Two orders are the same but for their ids and times. -/
def SameOrder (input input' : Input) : Prop :=
  { input with orderId := 0, details := { input.details with insertTime := 0 } } =
    { input' with orderId := 0, details := { input'.details with insertTime := 0 } }

/-- With enumerators by name, the type of the instrument, the frozen price and the conditions, which a
strategy does not set, are all that may differ. -/
theorem OrderFields.sameOrder_issued (f : OrderFields)
    (conditions : Option (VolumeCondition × TimeCondition)) (orderId frameUid : UInt64)
    (now insertTime : Int64) (frame input : Input)
    (hinserted : insertedOrder true frame frameUid insertTime false 0 0 f = .ok (some input)) :
    let issued := f.issued .name conditions orderId now
    SameOrder { issued with
      instrumentType := input.instrumentType
      frozenPrice := f.limitPrice
      details := { issued.details with
        volumeCondition := frame.details.volumeCondition
        timeCondition := frame.details.timeCondition } } input := by
  unfold insertedOrder at hinserted
  cases htype : Wingchun.getInstrumentType f.exchangeId f.instrumentId with
  | error fault => simp [htype, bind, Except.bind] at hinserted
  | ok instrumentType =>
      by_cases hunknown : instrumentType = .Unknown
      · simp [htype, hunknown, pure, Except.pure] at hinserted
      · simp only [not_true_eq_false, if_false, htype, Outcome.ok_bind, hunknown, pure,
          Except.pure, Except.ok.injEq, Option.some.injEq] at hinserted
        subst hinserted
        simp [SameOrder, OrderFields.issued, EnumForm.read]

/-- Both ways of order entry send and book the same order, or neither sends one. -/
def Agrees : Except Thrown (Location × Input) → Except Wingchun.Fault (Option Input) → Prop
  | .ok (_, input), .ok (some input') => SameOrder input input'
  | .ok _, .ok none | .ok _, .error _ | .error _, .ok (some _) => False
  | .error _, .ok none | .error _, .error _ => True

/-- For an account that is ready, both send and book the same order if and only if the type of the
instrument cannot be told, where neither sends one. -/
theorem agrees_iff {s : ApiService} {homeMode : Mode} {account : Location} {location : Json}
    (f : OrderFields) (form : EnumForm) (conditions : Option (VolumeCondition × TimeCondition))
    (frameUid frameUid' : UInt64) (now insertTime : Int64) (frame : Input)
    (hready : s.readyAccount homeMode (f.toJson form location conditions) = .ok account) :
    Agrees (s.issuedOrder homeMode frameUid now (f.toJson form location conditions))
        (insertedOrder true frame frameUid' insertTime false 0 0 f) ↔
      ∃ fault, Wingchun.getInstrumentType f.exchangeId f.instrumentId = .error fault := by
  rw [ApiService.issuedOrder_toJson f form conditions frameUid now hready, insertedOrder]
  cases htype : Wingchun.getInstrumentType f.exchangeId f.instrumentId with
  | error fault => exact iff_of_true trivial ⟨fault, rfl⟩
  | ok instrumentType =>
      refine iff_of_false ?_ (by rintro ⟨fault, hfault⟩; cases hfault)
      by_cases hunknown : instrumentType = .Unknown
      · -- the service sends an order that the strategy refuses
        simp [hunknown, Agrees, pure, Except.pure]
      · have hne : InstrumentType.Unknown ≠ instrumentType := Ne.symm hunknown
        simp [hunknown, Agrees, SameOrder, OrderFields.issued, pure, Except.pure, hne]

/-! ## An order that differs -/

def exampleAccount : Location := ⟨10, .TD, .LIVE, "sim", "account"⟩

/-- A service that is connected to an account. -/
def exampleService : ApiService :=
  (ApiService.start 1).run [.addLocation exampleAccount, .register 10, .onWriteTo 10]

/-- An order for a stock. -/
def exampleFields : OrderFields where
  instrumentId := "600000"
  exchangeId := "SSE"
  limitPrice := 10
  volume := 100
  priceType := .Limit
  side := .Buy
  offset := .Open
  hedgeFlag := .Speculation
  fit := by decide

/-- The account as a client names it. -/
def exampleNamed : Json := .object [("uid", .string "0000000a")]

/-- An empty frame. -/
def emptyFrame : Input :=
  ⟨0, 0, "", "", .Unknown, 0, 0, 0, .Buy, .Limit, ⟨false, .Open, .Speculation, .Any, .IOC, 0, 0⟩⟩

theorem readyAccount_example :
    exampleService.readyAccount .LIVE (exampleFields.toJson .name exampleNamed none) =
      .ok exampleAccount := by
  decide +kernel

theorem agrees_iff_example :
    Agrees (exampleService.issuedOrder .LIVE 7 100 (exampleFields.toJson .name exampleNamed none))
        (insertedOrder true emptyFrame 8 99 false 0 0 exampleFields) ↔
      ∃ fault, Wingchun.getInstrumentType "SSE" "600000" = .error fault :=
  agrees_iff exampleFields .name none 7 8 100 99 emptyFrame readyAccount_example

/-- A client's order for a stock has no type and freezes nothing. -/
theorem not_agrees_of_stock :
    ¬ Agrees (exampleService.issuedOrder .LIVE 7 100 (exampleFields.toJson .name exampleNamed none))
      (insertedOrder true emptyFrame 8 99 false 0 0 exampleFields) := by
  rw [ApiService.issuedOrder_toJson exampleFields .name none 7 100 readyAccount_example]
  intro hagrees
  have htype := congrArg Longfist.OrderInput.instrumentType hagrees
  revert htype
  decide

end Kungfu.Api
