import Kungfu.Longfist.Types
import Mathlib.Logic.Function.Basic

/-!
# Books

The bookkeeper keeps one book for each account and strategy.  An order or a trade is applied
to the book of its source, and to the book of its destination unless it was published to
everyone.  How positions and assets change is left to the accounting methods.
-/

namespace Kungfu.Wingchun

open Longfist

variable {δ α : Type}

/-- A book: the assets and positions, and the latest orders and trades by id. -/
structure Book (δ α : Type) (K : Type := Rat) where
  state : α
  orders : UInt64 → Option (Order δ K)
  trades : UInt64 → Option (Trade δ)

/-- `Book::replace`. -/
def Book.replace (book : Book δ α) : Record δ → Book δ α
  | .order o => { book with orders := Function.update book.orders o.orderId (some o) }
  | .trade t => { book with trades := Function.update book.trades t.tradeId (some t) }

structure AccountingMethod (δ α : Type) where
  applyOrder : Book δ α → Order δ → Book δ α
  applyTrade : Book δ α → Trade δ → Book δ α

def AccountingMethod.apply (method : AccountingMethod δ α) (book : Book δ α) :
    Record δ → Book δ α
  | .order o => method.applyOrder book o
  | .trade t => method.applyTrade book t

/-- The accounting methods, and what is done to positions and assets around them. -/
structure Accounting (δ α : Type) where
  stock : AccountingMethod δ α
  bond : AccountingMethod δ α
  future : AccountingMethod δ α
  repo : AccountingMethod δ α
  crypto : AccountingMethod δ α
  /-- `Book::get_position_for` makes the position if there is none. -/
  getPositionFor : Record δ → α → α
  /-- The position gets its update time. -/
  touchPosition : Int64 → Record δ → α → α
  /-- `Book::update`. -/
  update : Int64 → α → α
  /-- `Bookkeeper::make_book`. -/
  makeBook : UInt32 → Book δ α

/-- The books by location uid. -/
abbrev BookMap (δ α : Type) := UInt32 → Option (Book δ α)

namespace Accounting

variable (A : Accounting δ α)

/-- `AccountingMethod::setup_defaults`. -/
def accountingMethods : InstrumentType → Option (AccountingMethod δ α)
  | .Stock => some A.stock
  | .Bond => some A.bond
  | .Fund => some A.stock
  | .StockOption => some A.future
  | .Warrant => some A.future
  | .Iopt => some A.future
  | .TechStock => some A.stock
  | .Index => some A.stock
  | .Repo => some A.repo
  | .Future => some A.future
  | .Crypto => some A.crypto
  | .Unknown => some A.stock

/-- `Bookkeeper::get_book`. -/
def getBook (books : BookMap δ α) (uid : UInt32) : Book δ α := (books uid).getD (A.makeBook uid)

/-- What `apply_and_update` does to a book. -/
def applyAndUpdate (updateTime : Int64) (method : AccountingMethod δ α) (r : Record δ)
    (book : Book δ α) : Book δ α :=
  let book := { book with state := A.getPositionFor r book.state }
  let book := method.apply book r
  let book := { book with state := A.touchPosition updateTime r book.state }
  let book := book.replace r
  { book with state := A.update updateTime book.state }

/-- `Bookkeeper::update_book` for an order or a trade. -/
def updateBook (updateTime : Int64) (source dest : UInt32) (r : Record δ) (books : BookMap δ α) :
    BookMap δ α :=
  match A.accountingMethods r.instrumentType with
  | none => books
  | some method =>
      let apply := fun (books : BookMap δ α) uid =>
        Function.update books uid (some (A.applyAndUpdate updateTime method r (A.getBook books uid)))
      let books := apply books source
      if dest ≠ PUBLIC then apply books dest else books

/-- The effect of a record on a book. -/
def effect (updateTime : Int64) (r : Record δ) (book : Book δ α) : Book δ α :=
  match A.accountingMethods r.instrumentType with
  | none => book
  | some method => A.applyAndUpdate updateTime method r book

/-- There is an accounting method for every instrument type. -/
theorem isSome_accountingMethods (type : InstrumentType) : (A.accountingMethods type).isSome := by
  cases type <;> rfl

/-- The book of the source changes by the effect of the record once, and once more if the
source is the destination, too. -/
theorem getBook_updateBook_source (updateTime : Int64) (source dest : UInt32) (r : Record δ)
    (books : BookMap δ α) :
    A.getBook (A.updateBook updateTime source dest r books) source =
      if dest ≠ PUBLIC ∧ dest = source then
        A.effect updateTime r (A.effect updateTime r (A.getBook books source))
      else A.effect updateTime r (A.getBook books source) := by
  obtain ⟨method, hmethod⟩ := Option.isSome_iff_exists.mp
    (A.isSome_accountingMethods r.instrumentType)
  have heffect : ∀ book, A.effect updateTime r book = A.applyAndUpdate updateTime method r book :=
    fun book => by rw [effect, hmethod]
  simp only [updateBook, hmethod, heffect]
  by_cases hpub : dest = PUBLIC
  · simp [hpub, getBook]
  · by_cases hdest : dest = source
    · subst hdest
      simp [hpub, getBook]
    · simp [hpub, hdest, Ne.symm hdest, getBook]

end Accounting

end Kungfu.Wingchun
