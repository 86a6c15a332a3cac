import Kungfu.Api.Service
import Kungfu.Logic.Outcome

/-!
# Orders of clients

A client names an account and gives the fields of an order as JSON.  The service fills in what is
missing, and reads the record from the JSON by its reflection: a number as a number, a text into a
field of a fixed size, and an enumerator by its name.
-/

namespace Kungfu.Api

open Longfist Yijinjing Index Practice Logic

/-! ## Enumerators -/

inductive VolumeCondition
  | Any | Min | All
  deriving DecidableEq, Repr

inductive TimeCondition
  | IOC | GFD | GTC
  deriving DecidableEq, Repr

inductive OrderActionFlag
  | Cancel
  deriving DecidableEq, Repr

def instrumentTypeNames : Json.EnumNames InstrumentType where
  first := (.Unknown, "Unknown")
  others :=
    [(.Stock, "Stock"), (.StockOption, "StockOption"), (.TechStock, "TechStock"),
      (.Future, "Future"), (.Bond, "Bond"), (.Fund, "Fund"), (.Index, "Index"), (.Repo, "Repo"),
      (.Crypto, "Crypto"), (.Warrant, "Warrant"), (.Iopt, "Iopt")]

def sideNames : Json.EnumNames Side where
  first := (.Buy, "Buy")
  others :=
    [(.Sell, "Sell"), (.Lock, "Lock"), (.Unlock, "Unlock"), (.Exec, "Exec"), (.Drop, "Drop"),
      (.Purchase, "Purchase"), (.Redemption, "Redemption"), (.Split, "Split"), (.Merge, "Merge"),
      (.MarginTrade, "MarginTrade"), (.ShortSell, "ShortSell"), (.RepayMargin, "RepayMargin"),
      (.RepayStock, "RepayStock"), (.CashRepayMargin, "CashRepayMargin"),
      (.StockRepayStock, "StockRepayStock"), (.SurplusStockTransfer, "SurplusStockTransfer"),
      (.GuaranteeStockTransferIn, "GuaranteeStockTransferIn"),
      (.GuaranteeStockTransferOut, "GuaranteeStockTransferOut"), (.Unknown, "Unknown")]

def offsetNames : Json.EnumNames Offset where
  first := (.Open, "Open")
  others :=
    [(.Close, "Close"), (.CloseToday, "CloseToday"), (.CloseYesterday, "CloseYesterday")]

def hedgeFlagNames : Json.EnumNames HedgeFlag where
  first := (.Speculation, "Speculation")
  others := [(.Arbitrage, "Arbitrage"), (.Hedge, "Hedge"), (.Covered, "Covered")]

def priceTypeNames : Json.EnumNames PriceType where
  first := (.Limit, "Limit")
  others :=
    [(.Any, "Any"), (.FakBest5, "FakBest5"), (.ForwardBest, "ForwardBest"),
      (.ReverseBest, "ReverseBest"), (.Fak, "Fak"), (.Fok, "Fok"), (.Unknown, "Unknown")]

def volumeConditionNames : Json.EnumNames VolumeCondition where
  first := (.Any, "Any")
  others := [(.Min, "Min"), (.All, "All")]

def timeConditionNames : Json.EnumNames TimeCondition where
  first := (.IOC, "IOC")
  others := [(.GFD, "GFD"), (.GTC, "GTC")]

def orderActionFlagNames : Json.EnumNames OrderActionFlag := ⟨(.Cancel, "Cancel"), []⟩

@[simp] theorem read_sideNames (a : Side) : sideNames.read (sideNames.name a) = a := by
  cases a <;> decide

@[simp] theorem read_offsetNames (a : Offset) : offsetNames.read (offsetNames.name a) = a := by
  cases a <;> decide

@[simp] theorem read_hedgeFlagNames (a : HedgeFlag) :
    hedgeFlagNames.read (hedgeFlagNames.name a) = a := by
  cases a <;> decide

@[simp] theorem read_priceTypeNames (a : PriceType) :
    priceTypeNames.read (priceTypeNames.name a) = a := by
  cases a <;> decide

/-! ## Records -/

/-- What a handler may end with instead of a result. -/
inductive Thrown
  | exception (what : String)
  /-- A text and its null character do not fit in a field, and are copied past its end. -/
  | overflow
  deriving DecidableEq, Repr

/-- What throws at most exceptions may be used where texts are copied. -/
instance : MonadLift (Except String) (Except Thrown) := ⟨fun x => x.mapError .exception⟩

@[simp] theorem liftM_ok {α : Type} (a : α) :
    (liftM (.ok a : Except String α) : Except Thrown α) = .ok a := rfl

@[simp] theorem liftM_error {α : Type} (what : String) :
    (liftM (.error what : Except String α) : Except Thrown α) = .error (.exception what) := rfl

/-- `strcpy` into a field of some size, or the assignment of an `array`. -/
def copyText (size : ℕ) (text : String) : Except Thrown String :=
  if (cStr text).utf8ByteSize < size then .ok (cStr text) else .error .overflow

/-- The fields of an `OrderInput` that accounting does not read are kept, too. -/
structure InputDetails where
  isSwap : Bool
  offset : Offset
  hedgeFlag : HedgeFlag
  volumeCondition : VolumeCondition
  timeCondition : TimeCondition
  blockId : UInt64
  insertTime : Int64
  deriving DecidableEq, Repr

abbrev Input := Longfist.OrderInput InputDetails

/-- What the accounting methods are given of an order. -/
def toAccount (input : Input) : Longfist.OrderInput Details :=
  { orderId := input.orderId, parentId := input.parentId, instrumentId := input.instrumentId
    exchangeId := input.exchangeId, instrumentType := input.instrumentType
    limitPrice := input.limitPrice, frozenPrice := input.frozenPrice, volume := input.volume
    side := input.side, priceType := input.priceType
    details := ⟨input.details.offset, input.details.hedgeFlag, 0, 0, 0⟩ }

/-- `OrderAction`. -/
structure Action extends OrderAction where
  actionFlag : OrderActionFlag
  price : ℚ
  volume : Int64
  insertTime : Int64

/-- `restore_from_json` of a member; what is not there is read as null. -/
def restore {α : Type} (get : Json → Except String α) (key : String) (j : Json) : Except String α :=
  get (j.memberOrNull key)

/-- `restore_from_json` of a text. -/
def restoreText (size : ℕ) (key : String) (j : Json) : Except Thrown String := do
  copyText size (← restore Json.getString key j)

/-- `restore_from_json` of an enumerator. -/
def restoreEnum {α : Type} (names : Json.EnumNames α) (key : String) (j : Json) : α :=
  Json.getEnum names (j.memberOrNull key)

/-- `parse`, field by field. -/
def OrderInput.parse (j : Json) : Except Thrown Input := do
  let orderId ← restore Json.getUInt64 "order_id" j
  let parentId ← restore Json.getUInt64 "parent_id" j
  let instrumentId ← restoreText INSTRUMENT_ID_LEN "instrument_id" j
  let exchangeId ← restoreText EXCHANGE_ID_LEN "exchange_id" j
  let limitPrice ← restore Json.getRat "limit_price" j
  let frozenPrice ← restore Json.getRat "frozen_price" j
  let volume ← restore Json.getInt64 "volume" j
  let isSwap ← restore Json.getBool "is_swap" j
  let blockId ← restore Json.getUInt64 "block_id" j
  let insertTime ← restore Json.getInt64 "insert_time" j
  .ok {
    orderId := orderId
    parentId := parentId
    instrumentId := instrumentId
    exchangeId := exchangeId
    instrumentType := restoreEnum instrumentTypeNames "instrument_type" j
    limitPrice := limitPrice
    frozenPrice := frozenPrice
    volume := volume
    side := restoreEnum sideNames "side" j
    priceType := restoreEnum priceTypeNames "price_type" j
    details := {
      isSwap := isSwap
      offset := restoreEnum offsetNames "offset" j
      hedgeFlag := restoreEnum hedgeFlagNames "hedge_flag" j
      volumeCondition := restoreEnum volumeConditionNames "volume_condition" j
      timeCondition := restoreEnum timeConditionNames "time_condition" j
      blockId := blockId
      insertTime := insertTime } }

def OrderAction.parse (j : Json) : Except String Action := do
  let orderId ← restore Json.getUInt64 "order_id" j
  let orderActionId ← restore Json.getUInt64 "order_action_id" j
  let price ← restore Json.getRat "price" j
  let volume ← restore Json.getInt64 "volume" j
  let insertTime ← restore Json.getInt64 "insert_time" j
  .ok {
    orderId := orderId
    orderActionId := orderActionId
    actionFlag := restoreEnum orderActionFlagNames "action_flag" j
    price := price
    volume := volume
    insertTime := insertTime }

/-! ## Locations -/

def getModeByName (name : String) : Mode :=
  if name = "live" then .LIVE
  else if name = "data" then .DATA
  else if name = "replay" then .REPLAY
  else if name = "backtest" then .BACKTEST
  else .LIVE

def getCategoryByName (name : String) : Category :=
  if name = "md" then .MD
  else if name = "td" then .TD
  else if name = "strategy" then .STRATEGY
  else .SYSTEM

def hexDigit (c : Char) : Option ℕ :=
  if '0' ≤ c ∧ c ≤ '9' then some (c.toNat - '0'.toNat)
  else if 'a' ≤ c ∧ c ≤ 'f' then some (c.toNat - 'a'.toNat + 10)
  else if 'A' ≤ c ∧ c ≤ 'F' then some (c.toNat - 'A'.toNat + 10)
  else none

/-- The digits at the front of a text, behind `0x`, as a number; a larger one than the largest is the
largest. -/
def hexNumber (negative : Bool) (chars : List Char) : UInt32 :=
  let chars := match chars with
    | '0' :: 'x' :: rest | '0' :: 'X' :: rest => rest
    | rest => rest
  let digits := (chars.map hexDigit).takeWhile Option.isSome
  let n := digits.foldl (fun n digit => 16 * n + digit.getD 0) 0
  if 2 ^ 32 ≤ n then 0xFFFFFFFF
  else if negative then - UInt32.ofNat n
  else UInt32.ofNat n

/-- `parse_uid_hex`, which reads a number from a stream: blanks and a sign may come first, and what
is no number is zero. -/
def parseUidHex (text : String) : UInt32 :=
  match text.toList.dropWhile Wingchun.isSpace with
  | '-' :: rest => hexNumber true rest
  | '+' :: rest => hexNumber false rest
  | rest => hexNumber false rest

/-- A member of a location that is there. -/
def textOf (key : String) (loc : Json) : Except String String := restore Json.getString key loc

namespace ApiService

variable (s : ApiService)

/-- The location that is named by its category, group, name and mode. -/
def namedLocation (homeMode : Mode) (loc : Json) : Except String (Option Location) :=
  if loc.contains "category" ∧ loc.contains "group" ∧ loc.contains "name" then do
    let category := getCategoryByName (← textOf "category" loc)
    let mode ← if loc.contains "mode" then getModeByName <$> textOf "mode" loc else .ok homeMode
    let group ← textOf "group" loc
    let name ← textOf "name" loc
    return some (makeLocation mode category group name)
  else .ok none

/-- `resolve_location`: a location that is known by its uid, or that is named. -/
def resolveLocation (homeMode : Mode) (data : Json) : Except String (Option Location) :=
  match data.member "location" with
  | none => .ok none
  | some loc =>
      if loc.contains "uid" then do
        match s.locations.lookup (parseUidHex (← textOf "uid" loc)) with
        | some location => .ok (some location)
        | none => namedLocation homeMode loc
      else namedLocation homeMode loc

/-! ## Orders and actions -/

/-- The id of an order or of an action, from the uid of the frame in which it is written. -/
def makeInstructionUid (frameUid : UInt64) (dest clientId : UInt32) : UInt64 :=
  ((clientId ^^^ dest).toUInt64 <<< 32) ||| ((0xFFFFFFFF &&& frameUid) ||| 0x80000000)

/-- The account of a request, to which the service can write. -/
def readyAccount (homeMode : Mode) (data : Json) : Except String Location := do
  match ← s.resolveLocation homeMode data with
  | none => .error "invalid account location"
  | some account =>
      if account.uid ∉ s.registry ∨ account.uid ∉ s.writers then
        .error s!"account {uname account} not ready"
      else .ok account

/-- The type of the instrument is put in as a number. -/
def setInstrumentType (data : Json) : Except String Json :=
  if ¬ data.contains "instrument_type" ∧ data.contains "exchange_id" ∧
      data.contains "instrument_id" then do
    let exchangeId ← textOf "exchange_id" data
    let instrumentId ← textOf "instrument_id" data
    match Wingchun.getInstrumentType exchangeId instrumentId with
    | .error _ => .error "stoi"
    | .ok instrumentType => .ok (data.set "instrument_type" (.integer instrumentType.ctorIdx))
  else .ok data

/-- What an order has if the client does not give it. -/
def orderDefaults (data : Json) : Json :=
  let data := data.setDefault "order_id" (.integer 0)
  let data := data.setDefault "parent_id" (.integer 0)
  let data := data.setDefault "frozen_price" (.float 0)
  let data := data.setDefault "is_swap" (.boolean false)
  let data := data.setDefault "block_id" (.integer 0)
  data.setDefault "insert_time" (.integer 0)

/-- What an action has if the client does not give it. -/
def actionDefaults (data : Json) : Json :=
  let data := data.setDefault "order_action_id" (.integer 0)
  let data := data.setDefault "action_flag" (.integer 0)
  let data := data.setDefault "price" (.float 0)
  let data := data.setDefault "volume" (.integer 0)
  data.setDefault "insert_time" (.integer 0)

/-- The order that `handle_issue_order` sends to an account and books. -/
def issuedOrder (homeMode : Mode) (frameUid : UInt64) (now : Int64) (data : Json) :
    Except Thrown (Location × Input) := do
  let account ← s.readyAccount homeMode data
  let data ← setInstrumentType (data.erase "location")
  let input ← OrderInput.parse (orderDefaults data)
  return (account, { input with
    orderId := makeInstructionUid frameUid account.uid s.homeUid
    details := { input.details with insertTime := now } })

/-- The action that `handle_cancel_order` sends to an account. -/
def issuedAction (homeMode : Mode) (frameUid : UInt64) (now : Int64) (data : Json) :
    Except String (Location × Action) := do
  let account ← s.readyAccount homeMode data
  let action ← OrderAction.parse (actionDefaults (data.erase "location"))
  return (account, { action with
    orderActionId := makeInstructionUid frameUid account.uid s.homeUid
    insertTime := now })

end ApiService

end Kungfu.Api
