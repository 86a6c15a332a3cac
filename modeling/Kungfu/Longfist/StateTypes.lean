import Kungfu.Longfist.Account
import Kungfu.Yijinjing.Hash
import Mathlib.Data.Fintype.Basic

/-!
# The state types

The types of data that are cached, each with its primary key and its texts.  Texts of fixed
length are arrays of characters, and assigning one array to another copies the characters of
the new text over the old one without clearing what is behind them.  The uid of a datum, by
which banks file it, is made of the hashes of its primary key.
-/

namespace Kungfu.Longfist

/-! ## Types -/

/-- The types in `StateDataTypes`. -/
inductive StateDataType
  | Config | RiskSetting | TimeValue | TimeKeyValue | StrategyStateUpdate | Commission | Instrument
  | Basket | BasketInstrument | Quote | Tree | OrderAction | BlockMessage | OrderInput | Order
  | Trade | Asset | AssetMargin | Position | OrderStat | BasketOrder
  deriving DecidableEq, Repr

/-- `StateDataTypes`, in its order. -/
def StateDataTypes : List StateDataType :=
  [.Config, .RiskSetting, .TimeValue, .TimeKeyValue, .StrategyStateUpdate, .Commission,
    .Instrument, .Basket, .BasketInstrument, .Quote, .Tree, .OrderAction, .BlockMessage,
    .OrderInput, .Order, .Trade, .Asset, .AssetMargin, .Position, .OrderStat, .BasketOrder]

theorem mem_stateDataTypes (t : StateDataType) : t ∈ StateDataTypes := by cases t <;> decide

/-- The types of the fields that primary keys consist of: `chars` is an array of characters. -/
inductive KeyKind
  | uint32 | uint64 | int64 | direction | string | chars

namespace StateDataType

/-- `primary_keys`. -/
def primaryKeys : StateDataType → List KeyKind
  | Config | RiskSetting => [.uint32]
  | TimeValue | StrategyStateUpdate => [.int64]
  | TimeKeyValue => [.string]
  | Commission => [.chars, .chars]
  | Instrument | Quote | Tree => [.chars, .chars]
  | Basket => [.uint32]
  | BasketInstrument => [.uint32, .chars, .chars]
  | OrderAction | BlockMessage | OrderInput | Order | Trade | OrderStat | BasketOrder => [.uint64]
  | Asset | AssetMargin => [.uint32]
  | Position => [.uint32, .chars, .chars, .direction]

/-- The arrays of characters outside the primary key. -/
def texts : StateDataType → List String
  | Instrument => ["open_date", "create_date", "expire_date"]
  | Quote | Tree => ["trading_day", "trading_phase_code"]
  | BlockMessage => ["opponent_seat"]
  | OrderInput => ["instrument_id", "exchange_id"]
  | Order => ["external_order_id", "trading_day", "instrument_id", "exchange_id", "error_msg"]
  | Trade =>
      ["external_order_id", "external_trade_id", "trading_day", "instrument_id", "exchange_id"]
  | Asset | AssetMargin | Position => ["trading_day"]
  | Config | RiskSetting | TimeValue | TimeKeyValue | StrategyStateUpdate | Commission | Basket
  | BasketInstrument | OrderAction | OrderStat | BasketOrder => []

/-- `has_timestamp`. -/
def hasTimestamp : StateDataType → Bool
  | TimeValue | TimeKeyValue | StrategyStateUpdate | OrderAction | BlockMessage | OrderInput
  | Order | Trade | OrderStat | BasketOrder => true
  | Config | RiskSetting | Commission | Instrument | Basket | BasketInstrument | Quote | Tree
  | Asset | AssetMargin | Position => false

end StateDataType

/-! ## Primary keys -/

/-- The characters of a text, up to the terminating one. -/
abbrev Text := List UInt8

/-- Copying the characters of `new` into the array that holds `old`. -/
def assignText (old new : Text) : Text := new ++ old.drop new.length

theorem assignText_self (text : Text) : assignText text text = text := by simp [assignText]

/-- The new text is left alone just when the old one is no longer. -/
theorem assignText_eq_right {old new : Text} :
    assignText old new = new ↔ old.length ≤ new.length := by
  rw [assignText, List.append_right_eq_self, List.drop_eq_nil_iff]

theorem length_assignText (old new : Text) :
    (assignText old new).length = max old.length new.length := by
  simp only [assignText, List.length_append, List.length_drop]
  omega

namespace KeyKind

def Value : KeyKind → Type
  | uint32 => UInt32
  | uint64 => UInt64
  | int64 => Int64
  | direction => Direction
  | string | chars => Text

instance : (kind : KeyKind) → DecidableEq kind.Value
  | uint32 => inferInstanceAs (DecidableEq UInt32)
  | uint64 => inferInstanceAs (DecidableEq UInt64)
  | int64 => inferInstanceAs (DecidableEq Int64)
  | direction => inferInstanceAs (DecidableEq Direction)
  | string | chars => inferInstanceAs (DecidableEq (List UInt8))

/-- The value of a direction as an integer. -/
def directionValue : Direction → UInt64
  | .Long => 0
  | .Short => 1

/-- `hash`: integers and enumerations are their own hashes. -/
def hash : (kind : KeyKind) → kind.Value → UInt64
  | uint32, value => UInt32.toUInt64 value
  | uint64, value => value
  | int64, value => Int64.toUInt64 value
  | direction, value => directionValue value
  | string, value | chars, value => (Yijinjing.hash32 value).toUInt64

def assign : (kind : KeyKind) → kind.Value → kind.Value → kind.Value
  | chars, old, new => assignText old new
  | uint32, _, new | uint64, _, new | int64, _, new | direction, _, new | string, _, new => new

theorem assign_self (kind : KeyKind) (value : kind.Value) : kind.assign value value = value := by
  cases kind
  case chars => exact assignText_self value
  all_goals rfl

end KeyKind

/-- The fields of a primary key. -/
def KeyTuple : List KeyKind → Type
  | [] => Unit
  | kind :: kinds => kind.Value × KeyTuple kinds

namespace KeyTuple

instance decidableEq : (kinds : List KeyKind) → DecidableEq (KeyTuple kinds)
  | [] => inferInstanceAs (DecidableEq Unit)
  | kind :: kinds =>
      have := decidableEq kinds
      inferInstanceAs (DecidableEq (kind.Value × KeyTuple kinds))

def hashes : (kinds : List KeyKind) → KeyTuple kinds → List UInt64
  | [], _ => []
  | kind :: kinds, (value, values) => kind.hash value :: hashes kinds values

def assign : (kinds : List KeyKind) → KeyTuple kinds → KeyTuple kinds → KeyTuple kinds
  | [], _, new => new
  | kind :: kinds, (old, olds), (new, news) => (kind.assign old new, assign kinds olds news)

theorem assign_self : ∀ (kinds : List KeyKind) (key : KeyTuple kinds), assign kinds key key = key
  | [], _ => rfl
  | kind :: kinds, (value, values) => by
      rw [assign, kind.assign_self, assign_self kinds]

end KeyTuple

abbrev PrimaryKey (t : StateDataType) : Type := KeyTuple t.primaryKeys

/-- The hashes of a primary key, folded. -/
def PrimaryKey.uid {t : StateDataType} (key : PrimaryKey t) : UInt64 :=
  (KeyTuple.hashes t.primaryKeys key).foldl (· ^^^ ·) 0

/-! ## Data -/

/-- A datum of a type: its primary key, its other arrays of characters, its timestamp if the
type has one, and the fields that nothing here reads. -/
structure Data (δ : Type) (t : StateDataType) where
  key : PrimaryKey t
  texts : Fin t.texts.length → Text
  timestamp : Int64
  details : δ
  deriving DecidableEq

namespace Data

variable {δ : Type} {t : StateDataType}

/-- `uid`. -/
def uid (data : Data δ t) : UInt64 := PrimaryKey.uid data.key

/-- The assignment of a datum to another one. -/
def assign (old new : Data δ t) : Data δ t where
  key := KeyTuple.assign t.primaryKeys old.key new.key
  texts i := assignText (old.texts i) (new.texts i)
  timestamp := new.timestamp
  details := new.details

theorem uid_eq_of_key {data data' : Data δ t} (h : data.key = data'.key) : data.uid = data'.uid := by
  rw [uid, uid, h]

@[simp] theorem texts_assign (old new : Data δ t) (i : Fin t.texts.length) :
    (old.assign new).texts i = assignText (old.texts i) (new.texts i) := rfl

theorem key_assign {old new : Data δ t} (h : old.key = new.key) :
    (old.assign new).key = new.key := by
  rw [assign, h, KeyTuple.assign_self]

/-- Assignment over a datum with the same key leaves the new datum alone just when no text
of the old one is longer. -/
theorem assign_eq_right {old new : Data δ t} (h : old.key = new.key) :
    old.assign new = new ↔ ∀ i, (old.texts i).length ≤ (new.texts i).length := by
  have hkey := key_assign h
  obtain ⟨key, texts, timestamp, details⟩ := new
  constructor
  · intro hassign i
    rw [← assignText_eq_right, ← texts_assign, hassign]
  · intro hlength
    have htexts : (old.assign ⟨key, texts, timestamp, details⟩).texts = texts :=
      funext fun i => assignText_eq_right.mpr (hlength i)
    simp only [assign, Data.mk.injEq, and_self, and_true] at hkey htexts ⊢
    exact ⟨hkey, htexts⟩

end Data

end Kungfu.Longfist
