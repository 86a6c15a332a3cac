import Kungfu.Wingchun.Book
import Mathlib.Data.Rat.Floor

/-!
# Accounting of crypto currencies

A trade in a pair of currencies changes the positions of both, and of the currency in which
the commission is paid.  Orders freeze nothing.
-/

namespace Kungfu.Wingchun

open Longfist

namespace CryptoAccountingMethod

/-- The conversion of an amount to a whole number, which drops the fraction. -/
def truncate (x : ℚ) : ℤ := if 0 ≤ x then ⌊x⌋ else ⌈x⌉

/-- The currencies of a pair, and how much of them a trade moves. -/
structure Pair where
  instrumentA : String
  instrumentB : String
  instrumentCommission : String
  volumeA : ℤ
  volumeB : ℤ
  volumeCommission : ℤ

/-- `INSTRUMENT_ID_LEN`. -/
def instrumentIdLen : ℕ := 32

/-- Where the name of the first currency ends, if the delivery year is the length of the second one.
The difference is a `size_t`, which wraps. -/
def split (instrument : Instrument) : UInt64 :=
  instrument.instrumentId.length.toUInt64 - instrument.deliveryYear.toInt64.toUInt64

/-- `get_instrument`.  The pair must be known as an instrument.  The second name is read from where the
first one ends, which must be in the array; behind a name the array is empty. -/
def getInstrument (market : Market) (trade : Trade Details) : Except Fault Pair :=
  match market.instruments (hashInstrument trade.exchangeId trade.instrumentId) with
  | none => .error .outOfRange
  | some instrument =>
      if (split instrument).toNat < instrumentIdLen then
        let chars := instrument.instrumentId.toList
        let instrumentA := String.ofList (chars.take (split instrument).toNat)
        let instrumentB := String.ofList (chars.drop (split instrument).toNat)
        .ok
          { instrumentA := instrumentA
            instrumentB := instrumentB
            instrumentCommission :=
              if trade.details.hedgeFlag = .Speculation then "BNB"
              else if trade.details.hedgeFlag = .Arbitrage then instrumentB
              else instrumentA
            volumeA := trade.volume.toInt
            volumeB := truncate (trade.volume.toInt * trade.details.price)
            volumeCommission := truncate trade.details.commission }
      else .error .overrun

/-- A pair that is not known throws, and one whose names are not in their arrays does not. -/
theorem getInstrument_eq_error {market : Market} {trade : Trade Details} {fault : Fault}
    (h : getInstrument market trade = .error fault) : fault = .outOfRange ∨ fault = .overrun := by
  unfold getInstrument at h
  split at h
  · cases h
    exact .inl rfl
  · split at h
    · cases h
    · cases h
      exact .inr rfl

/-- A change of the volume of a long position. -/
def addVolume (book : AccountBook) (exchangeId instrumentId : String) (volume : ℤ) : AccountBook :=
  book.onSlice .Long exchangeId instrumentId fun s =>
    { s with position := { s.position with volume := s.position.volume + volume } }

/-- What a trade moves between the positions of a pair. -/
def moveVolumes (trade : Trade Details) (pair : Pair) (book : AccountBook) : AccountBook :=
  let sign : ℤ := match trade.side with
    | .Buy => 1
    | .Sell => -1
    | _ => 0
  let book := addVolume book trade.exchangeId pair.instrumentA (sign * pair.volumeA)
  let book := addVolume book trade.exchangeId pair.instrumentB (-sign * pair.volumeB)
  addVolume book trade.exchangeId pair.instrumentCommission (-pair.volumeCommission)

/-- `apply_trade`. -/
def applyTrade (market : Market) (book : AccountBook) (trade : Trade Details) :
    Throws AccountBook := do
  let pair ← book.orThrow (getInstrument market trade)
  let book ← book.getPosition .Long trade.exchangeId pair.instrumentA
  let book ← book.getPosition .Long trade.exchangeId pair.instrumentB
  let book ← book.getPosition .Long trade.exchangeId pair.instrumentCommission
  return moveVolumes trade pair book

end CryptoAccountingMethod

end Kungfu.Wingchun
