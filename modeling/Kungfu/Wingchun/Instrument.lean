import Kungfu.Longfist.Account
import Mathlib.Algebra.Order.Field.Rat
import Mathlib.Algebra.Order.Group.Unbundled.Abs

/-!
# Instruments

How the type of an instrument is told from its exchange and its code, and on which side
positions of an order are kept.  Both may throw.
-/

namespace Kungfu.Wingchun

open Longfist

/-- What may be thrown while a book is updated, or happen instead. -/
inductive Fault
  /-- `wingchun_error` of `get_direction`, with the values it prints. -/
  | wingchunError (instrumentType : InstrumentType) (side : Side) (offset : Offset)
  /-- `std::invalid_argument`. -/
  | invalidArgument
  /-- `std::out_of_range`. -/
  | outOfRange
  /-- Nothing is thrown: what is behind an array is read or written. -/
  | overrun
  deriving DecidableEq, Repr

/-! ## Types of instruments -/

/-- `startswith`. -/
def startswith (str start : String) : Bool := start.toList.isPrefixOf str.toList

/-- The white space that `std::stoi` skips. -/
def isSpace (c : Char) : Bool := c = ' ' || ('\t' ≤ c && c ≤ '\r')

/-- `std::stoi`. -/
def stoi (str : String) : Except Fault ℤ :=
  let unsigned := fun (chars : List Char) =>
    let digits := chars.takeWhile Char.isDigit
    if digits.isEmpty then none
    else some (digits.foldl (fun (n : ℤ) c => 10 * n + (c.toNat - '0'.toNat)) 0)
  let value := match str.toList.dropWhile isSpace with
    | '-' :: rest => (unsigned rest).map (- ·)
    | '+' :: rest => unsigned rest
    | rest => unsigned rest
  match value with
  | none => .error .invalidArgument
  | some n => if n < -2 ^ 31 ∨ 2 ^ 31 ≤ n then .error .outOfRange else .ok n

/-- `hk_code_type_def`, the code ranges of the Hong Kong exchange. -/
def hkCodeTypeDef : List (ℤ × ℤ × InstrumentType) :=
  [(1, 2799, .Stock), (2800, 2849, .Fund), (3000, 3199, .Fund), (3400, 3499, .Fund),
    (4000, 4199, .Bond), (4200, 4299, .Bond), (4300, 4329, .Bond), (4400, 4599, .Bond),
    (5000, 6029, .Bond), (40000, 40999, .Bond), (4600, 4699, .Stock), (4700, 4799, .Bond),
    (4800, 4999, .Stock), (6200, 6299, .Stock), (6300, 6399, .Stock), (6750, 6799, .Bond),
    (7200, 7399, .Stock), (7500, 7599, .Stock), (7800, 7999, .Stock), (8000, 8999, .Stock),
    (9000, 9199, .Fund), (9400, 9499, .Fund), (9800, 9849, .Fund), (9200, 9399, .Stock),
    (9500, 9599, .Stock), (10000, 29999, .StockOption), (30000, 39999, .Stock),
    (41000, 46999, .Stock), (47000, 48999, .Warrant), (49000, 49999, .Stock),
    (50000, 69999, .Warrant), (70000, 79999, .Stock), (82800, 82849, .Fund),
    (83000, 83199, .Fund), (83400, 83499, .Fund), (84300, 84329, .Bond), (84400, 84599, .Bond),
    (85000, 85743, .Bond), (85901, 86029, .Bond), (84600, 84699, .Stock),
    (85744, 85900, .Stock), (86600, 86799, .Bond), (87000, 87099, .Fund),
    (87200, 87399, .Stock), (87500, 87599, .Stock), (89000, 89999, .StockOption),
    (90000, 99999, .Stock)]

/-- `get_instrument_type_by_exchange_hk`, which throws unless the code starts with a number. -/
def getInstrumentTypeByExchangeHk (instrumentId : String) : Except Fault InstrumentType := do
  let nId ← stoi instrumentId
  match hkCodeTypeDef.find? fun rule => rule.1 ≤ nId && nId ≤ rule.2.1 with
  | some rule => .ok rule.2.2
  | none => .ok .Stock

/-- The exchanges on which long and short positions of an instrument offset each other. -/
def mergeExchanges : List String :=
  ["USFUT", "HKFUT", "SGXFUT", "LONFUT", "AEXFUT", "AUXFUT", "HEXSFUT", "IDXFUT", "KORC", "LME",
    "MYSFUT", "ABB", "PRXFUT", "SIXFUT", "TAXFUT", "JPFUT", "TSEFUT", "XETRA", "EURFUT"]

/-- `get_instrument_type`. -/
def getInstrumentType (exchangeId instrumentId : String) : Except Fault InstrumentType :=
  if exchangeId = "SSE" then
    if instrumentId.utf8ByteSize = 8 then .ok .StockOption
    else if startswith instrumentId "00" then .ok .Index
    else if startswith instrumentId "0" then .ok .Bond
    else if startswith instrumentId "1" then .ok .Bond
    else if startswith instrumentId "2" then .ok .Repo
    else if startswith instrumentId "5" then .ok .Fund
    else if startswith instrumentId "688" || startswith instrumentId "787" ||
        startswith instrumentId "789" then .ok .TechStock
    else .ok .Stock
  else if exchangeId = "SZE" then
    if instrumentId.utf8ByteSize = 8 then .ok .StockOption
    else if startswith instrumentId "15" || startswith instrumentId "16" ||
        startswith instrumentId "18" then .ok .Fund
    else if startswith instrumentId "131" then .ok .Repo
    else if startswith instrumentId "1" then .ok .Bond
    else .ok .Stock
  else if exchangeId = "BSE" then .ok .Stock
  else if exchangeId ∈ ["DCE", "SHFE", "CFFEX", "CZCE", "INE", "GFEX"] then .ok .Future
  else if exchangeId ∈ ["BINANCE", "HB"] then .ok .Crypto
  else if exchangeId = "HK" then getInstrumentTypeByExchangeHk instrumentId
  -- the futures exchanges abroad, which are the ones that merge positions
  else if exchangeId ∈ mergeExchanges then .ok .Future
  else if exchangeId ∈ ["US", "SGX", "LON", "AEX", "AUX", "HEXS", "IDX", "MYS", "PRX", "SIX",
      "TAX", "JP", "TSE", "EUR"] then .ok .Stock
  else .ok .Unknown

/-! ## Directions -/

/-- `is_shortable`. -/
def isShortable : InstrumentType → Bool
  | .Stock | .Bond | .Fund | .TechStock | .Index | .Repo => false
  | _ => true

/-- `get_direction`. -/
def getDirection (instrumentType : InstrumentType) (side : Side) (offset : Offset) :
    Except Fault Direction :=
  match side with
  | .MarginTrade => .ok .Long
  | .ShortSell => .ok .Short
  | .RepayMargin => .ok .Long
  | .RepayStock => .ok .Short
  | .Exec => .ok .Long
  | side =>
      if !isShortable instrumentType then .ok .Long
      else if side = .Buy ∧ offset = .Open then .ok .Long
      else if side = .Sell ∧ (offset = .Close ∨ offset = .CloseToday ∨ offset = .CloseYesterday) then
        .ok .Long
      else if side = .Sell ∧ offset = .Open then .ok .Short
      else if side = .Buy ∧ (offset = .Close ∨ offset = .CloseToday ∨ offset = .CloseYesterday) then
        .ok .Short
      else .error (.wingchunError instrumentType side offset)

theorem getDirection_ne_overrun {type : InstrumentType} {side : Side} {offset : Offset}
    {fault : Fault} (h : getDirection type side offset = .error fault) : fault ≠ .overrun := by
  unfold getDirection at h
  split at h
  case h_6 =>
    split_ifs at h
    cases h
    simp
  all_goals cases h

/-- Buying and selling have a direction, whatever is traded. -/
theorem exists_getDirection (type : InstrumentType) {side : Side} (offset : Offset)
    (hside : side = .Buy ∨ side = .Sell) : ∃ direction, getDirection type side offset = .ok direction := by
  rcases hside with rfl | rfl <;> cases offset <;> cases type <;> exact ⟨_, rfl⟩

/-- A direction does not depend on the offset for being told. -/
theorem exists_getDirection_offset {type : InstrumentType} {side : Side} {offset offset' : Offset}
    {direction : Direction} (h : getDirection type side offset = .ok direction) :
    ∃ direction', getDirection type side offset' = .ok direction' := by
  cases side
  case Buy => exact exists_getDirection type offset' (.inl rfl)
  case Sell => exact exists_getDirection type offset' (.inr rfl)
  all_goals
    cases type <;> first | exact ⟨_, rfl⟩ | (exfalso; cases offset <;> cases h)

/-! ## Prices and rates -/

/-- The instruments and the commissions of a bookkeeper, which its books refer to. -/
structure Market (K : Type := ℚ) where
  instruments : UInt32 → Option (Instrument K)
  commissions : UInt32 → Option (Commission K)

section Numbers

variable {K : Type} [Sub K] [Mul K] [Div K] [Neg K] [Max K] [LE K] [DecidableLE K]
  [∀ n, OfNat K n]

/-- `EPSILON`. -/
def epsilon : K := 1 / 1000000

/-- `std::abs`. -/
def fabs (x : K) : K := max x (-x)

/-- `is_equal`. -/
def isEqual (x y : K) : Bool := fabs (x - y) ≤ epsilon * fabs x

/-- The exchange rate of an instrument that is known under a hash. -/
def Market.exchangeRate (market : Market K) (hash : UInt32) : K :=
  match market.instruments hash with
  | none => 1
  | some instrument => if isEqual instrument.exchangeRate 0 then 1 else instrument.exchangeRate

end Numbers

@[simp] theorem fabs_eq_abs (x : ℚ) : fabs x = |x| := rfl

theorem Market.exchangeRate_ne_zero (market : Market) (hash : UInt32) :
    market.exchangeRate hash ≠ 0 := by
  unfold Market.exchangeRate
  cases market.instruments hash with
  | none => exact one_ne_zero
  | some instrument =>
      by_cases hzero : instrument.exchangeRate = 0
      · simp [isEqual, hzero]
      · by_cases hequal : isEqual instrument.exchangeRate 0 <;> simp [hequal, hzero]

end Kungfu.Wingchun
