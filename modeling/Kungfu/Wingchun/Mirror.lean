import Kungfu.Logic.Binary64
import Kungfu.Wingchun.Transfer
import Kungfu.Wingchun.Quote
import Kungfu.Logic.Tally
import Mathlib.Tactic.Linarith

/-!
# Strategies that mirror accounts

A strategy may ask for its positions to be what the accounts that it has a channel to hold
together.  Its positions are emptied, and every account's position in an instrument that the
strategy holds is copied over the strategy's, with what was added up before put on top of it.
Nobody sees in which order the accounts come.
-/

namespace Kungfu.Wingchun

open Longfist Logic Outcome

namespace Book

variable {K : Type}

/-- `Book::has_position`. -/
def hasPosition (book : AccountBook K) (exchangeId instrumentId : String) : Bool :=
  book.Has (positionKey .Long exchangeId instrumentId) ∨
    book.Has (positionKey .Short exchangeId instrumentId)

/-- `Book::has_position_for` for the instrument of a position. -/
def hasPositionFor (book : AccountBook K) (row : Row K) : Bool :=
  book.hasPosition row.2.exchangeId row.2.instrumentId

/-- The book has a position in an instrument, in one direction or the other. -/
def HasInstrument (book : AccountBook) (hash : UInt32) : Prop :=
  ∃ direction, book.Has ⟨direction, hash⟩

theorem hasPositionFor_iff {book : AccountBook} {row : Row} :
    book.hasPositionFor row = true ↔ book.HasInstrument row.1.hash := by
  simp only [hasPositionFor, hasPosition, decide_eq_true_eq, positionKey, row.2.hashed]
  constructor
  · rintro (h | h)
    · exact ⟨_, h⟩
    · exact ⟨_, h⟩
  · rintro ⟨direction, h⟩
    cases direction with
    | Long => exact .inl h
    | Short => exact .inr h

end Book

/-- The books of a bookkeeper by their uids. -/
abbrev BookTable := Finmap fun _ : UInt32 => AccountBook

namespace Bookkeeper

variable {K : Type} [Add K] [Mul K] [Div K] [IntCast K] [∀ n, OfNat K n]
  (triggerTime : Int64) (strategyUid : UInt32)

/-- What `reset_positions` makes of a position. -/
def resetPosition {key : PositionKey} (position : Position key K) : Position key K :=
  { position with
    volume := 0
    yesterdayVolume := 0
    frozenTotal := 0
    frozenYesterday := 0
    avgOpenPrice := 0
    positionCostPrice := 0
    updateTime := triggerTime }

def resetPositions (book : AccountBook) : AccountBook :=
  { book with state := { book.state with
      positions := Book.mapPositions (resetPosition triggerTime) book.state.positions } }

/-- What `copy_positions` makes of a position of the strategy and one of an account. -/
def mirrorPosition {key key' : PositionKey} (strategyPosition : Position key' K)
    (position : Position key K) : Position key K :=
  let copied := { position with
    holderUid := strategyUid
    ledgerCategory := .Strategy
    updateTime := triggerTime }
  if 0 < strategyPosition.volume then
    let totalVolume := strategyPosition.volume + position.volume
    { copied with
      volume := copied.volume + strategyPosition.volume
      yesterdayVolume := copied.yesterdayVolume + strategyPosition.yesterdayVolume
      frozenTotal := copied.frozenTotal + strategyPosition.frozenTotal
      frozenYesterday := copied.frozenYesterday + strategyPosition.frozenYesterday
      avgOpenPrice :=
        (position.avgOpenPrice * position.volume +
          strategyPosition.avgOpenPrice * strategyPosition.volume) / totalVolume
      positionCostPrice :=
        (position.positionCostPrice * position.volume +
          strategyPosition.positionCostPrice * strategyPosition.volume) / totalVolume }
  else copied

/-- The body of the loop of `copy_positions`. -/
def copyPosition (strategyBook : AccountBook K) (row : Row K) : ThrowsOf K (AccountBook K) :=
  if strategyBook.hasPositionFor row then do
    let strategyBook ← strategyBook.getPositionFor row
    return strategyBook.setPosition
      (mirrorPosition triggerTime strategyUid (strategyBook.positionFor row) row.2)
  else .ok strategyBook

variable (hasChannel : UInt32 → UInt32 → Bool)

/-- The book is of an account that the strategy has a channel to. -/
def isMirrored (book : AccountBook) : Bool :=
  decide (book.state.asset.ledgerCategory = .Account) &&
    hasChannel strategyUid book.state.asset.holderUid

variable (app : App) (market : Market) (order : Iteration (PositionAt ℚ))
  (bookOrder : Iteration fun _ : UInt32 => AccountBook)

/-- The positions that `mirror_positions` copies, in its order. -/
def mirroredRows (books : BookTable) : List Row :=
  ((bookOrder.entries books).filter fun entry =>
    isMirrored strategyUid hasChannel entry.2).flatMap fun entry =>
      entry.2.rows order .Long ++ entry.2.rows order .Short

/-- `Bookkeeper::mirror_positions`.  A strategy is no account, so that the books that are copied
from do not change. -/
def mirrorPositions (books : BookTable) : Except Fault BookTable := do
  let strategyBook ← getBook app books.lookup strategyUid
  let strategyBook := resetPositions triggerTime strategyBook
  let books := books.insert strategyUid strategyBook
  let rows := mirroredRows strategyUid hasChannel order bookOrder books
  let strategyBook ← (rows.foldlM (copyPosition triggerTime strategyUid) strategyBook).mapError
    (·.fault)
  return books.insert strategyUid (strategyBook.update market triggerTime)

end Bookkeeper

open Bookkeeper

/-! ## What is added up -/

section AddsUp

variable {key key' : PositionKey} {M : Type} [AddCommMonoid M] {triggerTime : Int64}
  {strategyUid : UInt32}

/-- The position has no volume, nor what goes with one. -/
structure Blank (p : Position key) : Prop where
  volume : p.volume = 0
  yesterdayVolume : p.yesterdayVolume = 0
  frozenTotal : p.frozenTotal = 0
  frozenYesterday : p.frozenYesterday = 0

/-- The volume is not negative, and nothing goes with it where it is 0. -/
structure Coherent (p : Position key) : Prop where
  volume_nonneg : 0 ≤ p.volume
  blank : p.volume = 0 → Blank p

/-- A quantity of positions that a position and the one mirrored on it have together. -/
structure AddsUp (f : ∀ {key : PositionKey}, Position key → M) : Prop where
  blank : ∀ {key : PositionKey} {p : Position key}, Blank p → f p = 0
  mirror : ∀ {key key' : PositionKey} {p : Position key'} {q : Position key}
    (triggerTime : Int64) (strategyUid : UInt32), Coherent p → Coherent q →
      f (mirrorPosition triggerTime strategyUid p q) = f p + f q

theorem Blank.coherent {p : Position key} (h : Blank p) : Coherent p := ⟨h.volume.ge, fun _ => h⟩

theorem blank_resetPosition (p : Position key) : Blank (resetPosition triggerTime p) :=
  ⟨rfl, rfl, rfl, rfl⟩

/-- Over a position that is blank another is copied as it is. -/
theorem mirrorPosition_of_not_pos {p : Position key'} {q : Position key} (h : ¬ 0 < p.volume) :
    mirrorPosition triggerTime strategyUid p q =
      { q with holderUid := strategyUid, ledgerCategory := .Strategy, updateTime := triggerTime } := by
  rw [mirrorPosition, if_neg h]

theorem coherent_mirrorPosition {p : Position key'} {q : Position key} (hq : Coherent q) :
    Coherent (mirrorPosition triggerTime strategyUid p q) := by
  by_cases hpos : 0 < p.volume
  · have hvolume : 0 < q.volume + p.volume := by
      have := hq.volume_nonneg
      omega
    rw [mirrorPosition, if_pos hpos]
    exact ⟨hvolume.le, fun hzero => absurd hzero hvolume.ne'⟩
  · rw [mirrorPosition_of_not_pos hpos]
    exact ⟨hq.volume_nonneg, fun hzero => ⟨hzero, (hq.blank hzero).yesterdayVolume,
      (hq.blank hzero).frozenTotal, (hq.blank hzero).frozenYesterday⟩⟩

/-- Nothing is to be shown for a position that is blank, over which another is copied. -/
theorem AddsUp.of_pos {f : ∀ {key : PositionKey}, Position key → M}
    (hblank : ∀ {key : PositionKey} {p : Position key}, Blank p → f p = 0)
    (hcopy : ∀ {key : PositionKey} (q : Position key) (triggerTime : Int64) (strategyUid : UInt32),
      f { q with holderUid := strategyUid, ledgerCategory := .Strategy, updateTime := triggerTime } =
        f q)
    (hpos : ∀ {key key' : PositionKey} {p : Position key'} {q : Position key} (triggerTime : Int64)
      (strategyUid : UInt32), 0 < p.volume → 0 ≤ q.volume →
        f (mirrorPosition triggerTime strategyUid p q) = f p + f q) : AddsUp f := by
  refine ⟨hblank, fun {key key' p q} triggerTime strategyUid hp hq => ?_⟩
  by_cases h : 0 < p.volume
  · exact hpos triggerTime strategyUid h hq.volume_nonneg
  · have hzero : p.volume = 0 := le_antisymm (not_lt.mp h) hp.volume_nonneg
    rw [mirrorPosition_of_not_pos h, hcopy, hblank (hp.blank hzero), zero_add]

theorem addsUp_volume : AddsUp fun {key} (p : Position key) => p.volume := by
  refine .of_pos (fun h => h.volume) (fun _ _ _ => rfl) fun triggerTime strategyUid h _ => ?_
  rw [mirrorPosition, if_pos h]
  exact add_comm ..

theorem addsUp_yesterdayVolume : AddsUp fun {key} (p : Position key) => p.yesterdayVolume := by
  refine .of_pos (fun h => h.yesterdayVolume) (fun _ _ _ => rfl) fun triggerTime strategyUid h _ => ?_
  rw [mirrorPosition, if_pos h]
  exact add_comm ..

theorem addsUp_frozenTotal : AddsUp fun {key} (p : Position key) => p.frozenTotal := by
  refine .of_pos (fun h => h.frozenTotal) (fun _ _ _ => rfl) fun triggerTime strategyUid h _ => ?_
  rw [mirrorPosition, if_pos h]
  exact add_comm ..

theorem addsUp_frozenYesterday : AddsUp fun {key} (p : Position key) => p.frozenYesterday := by
  refine .of_pos (fun h => h.frozenYesterday) (fun _ _ _ => rfl) fun triggerTime strategyUid h _ => ?_
  rw [mirrorPosition, if_pos h]
  exact add_comm ..

/-- A weighted average times the weight is the sum that was averaged. -/
theorem average_mul {a b : ℚ} {v w : ℤ} (hv : 0 ≤ v) (hw : 0 < w) :
    (a * v + b * w) / ((w + v : ℤ) : ℚ) * ((v + w : ℤ) : ℚ) = b * w + a * v := by
  have hweight : ((w + v : ℤ) : ℚ) ≠ 0 := by
    have : w + v ≠ 0 := by omega
    exact_mod_cast this
  rw [add_comm v w, div_mul_cancel₀ _ hweight, add_comm]

theorem addsUp_openCost : AddsUp fun {key} (p : Position key) => p.avgOpenPrice * p.volume := by
  refine .of_pos (fun h => by simp [h.volume]) (fun _ _ _ => rfl)
    fun triggerTime strategyUid h hq => ?_
  rw [mirrorPosition, if_pos h]
  exact average_mul hq h

theorem addsUp_positionCost :
    AddsUp fun {key} (p : Position key) => p.positionCostPrice * p.volume := by
  refine .of_pos (fun h => by simp [h.volume]) (fun _ _ _ => rfl)
    fun triggerTime strategyUid h hq => ?_
  rw [mirrorPosition, if_pos h]
  exact average_mul hq h

end AddsUp

/-! ## One position -/

namespace Book

variable {M : Type} [AddCommMonoid M] {book book' : AccountBook} {key : PositionKey} {row : Row}
  {f : ∀ {key : PositionKey}, Position key → M}

/-- How much of a quantity a book has under a key. -/
def valueAt (f : ∀ {key : PositionKey}, Position key → M) (book : AccountBook) (key : PositionKey) :
    M :=
  (book.state.positions.lookup key).elim 0 f

theorem valueAt_of_lookup {p : Position key} (h : book.state.positions.lookup key = some p) :
    book.valueAt f key = f p := by
  rw [valueAt, h, Option.elim_some]

theorem valueAt_congr (h : book'.state.positions.lookup key = book.state.positions.lookup key) :
    book'.valueAt f key = book.valueAt f key := by
  rw [valueAt, h, valueAt]

theorem blank_newPosition (direction : Direction) (exchangeId instrumentId : String)
    (type : InstrumentType) : Blank (book.newPosition direction exchangeId instrumentId type) :=
  ⟨rfl, rfl, rfl, rfl⟩

/-- What a book gives out counts as much as the book has there. -/
theorem Gives.valueAt (hf : AddsUp f) {direction : Direction} {exchangeId instrumentId : String}
    {p : Position (positionKey direction exchangeId instrumentId)}
    (h : book.Gives direction exchangeId instrumentId p) :
    book.valueAt f (positionKey direction exchangeId instrumentId) = f p := by
  rcases h with h | ⟨h, type, -, rfl⟩
  · exact valueAt_of_lookup h
  · rw [hf.blank (blank_newPosition ..), Book.valueAt, h, Option.elim_none]

/-- What was copied of a position. -/
structure Copied (book : AccountBook) (row : Row) (book' : AccountBook) : Prop where
  coherent : book'.Forall Coherent
  has_iff : ∀ key, book'.Has key ↔ book.Has key ∨ key = row.1 ∧ book.HasInstrument row.1.hash
  value : ∀ {M : Type} [AddCommMonoid M] {f : ∀ {key : PositionKey}, Position key → M}, AddsUp f →
    book.HasInstrument row.1.hash → book'.valueAt f row.1 = book.valueAt f row.1 + f row.2
  others : ∀ key ≠ row.1, book'.state.positions.lookup key = book.state.positions.lookup key

/-- A position would have to be made of an instrument that has no type. -/
structure Untyped (book : AccountBook) (row : Row) : Prop where
  hasInstrument : book.HasInstrument row.1.hash
  missing : ¬ book.Has row.1
  untyped : ∃ fault, getInstrumentType row.2.exchangeId row.2.instrumentId = .error fault

theorem untyped_of_getPositionFor {thrown : Thrown AccountBook}
    (h : book.getPositionFor row = .error thrown) :
    ¬ book.Has row.1 ∧
      ∃ fault, getInstrumentType row.2.exchangeId row.2.instrumentId = .error fault := by
  have hhas : book.Has (positionKey row.2.direction row.2.exchangeId row.2.instrumentId) ↔
      book.Has row.1 := by rw [positionKey_eq]
  unfold getPositionFor getPosition at h
  split at h
  · cases h
  · next hmissing =>
      split at h
      · next fault htype => exact ⟨fun h => hmissing (hhas.mpr h), fault, htype⟩
      · cases h

theorem post_copyPosition (triggerTime : Int64) (strategyUid : UInt32) (hbook : book.Forall Coherent)
    (hrow : Coherent row.2) :
    Post (copyPosition triggerTime strategyUid book row) (Copied book row)
      fun _ => Untyped book row := by
  unfold copyPosition
  refine post_ite (fun hhas => ?_) fun hhas => ?_
  · have hinstrument := hasPositionFor_iff.mp hhas
    cases hget : book.getPositionFor row with
    | error thrown => 
        obtain ⟨hmissing, huntyped⟩ := untyped_of_getPositionFor hget
        exact ⟨hinstrument, hmissing, huntyped⟩
    | ok book₁ =>
        obtain ⟨p, hp, rfl⟩ := gives_of_getPosition hget
        have hkey := positionKey_eq row.2
        have hposition : (book.setPosition p).positionFor row = p :=
          position_of_lookup (lookup_setPosition p)
        have hcoherent : Coherent p := hp.elim (hbook _ _) fun type => (blank_newPosition ..).coherent
        have hothers : ∀ q : Position row.1, ∀ key ≠ row.1,
            ((book.setPosition p).setPosition q).state.positions.lookup key =
              book.state.positions.lookup key := by
          intro q key hne
          rw [lookup_setPosition_of_ne q hne, lookup_setPosition_of_ne p (by rwa [hkey])]
        rw [ok_bind, hposition]
        refine ⟨fun key q hq => ?_, fun key => ?_, fun hf _ => ?_, hothers _⟩
        · by_cases hne : key = row.1
          · subst hne
            rw [lookup_setPosition] at hq
            cases hq
            exact coherent_mirrorPosition hrow
          · rw [hothers _ key hne] at hq
            exact hbook key q hq
        · by_cases hne : key = row.1
          · subst hne
            simp [Has, hinstrument]
          · simp [Has, hothers _ key hne, hne]
        · rw [valueAt_of_lookup (lookup_setPosition _), hf.mirror _ _ hcoherent hrow,
            ← hp.valueAt hf, hkey]
  · have hinstrument : ¬ book.HasInstrument row.1.hash := fun h => hhas (hasPositionFor_iff.mpr h)
    refine ⟨hbook, fun key => ⟨.inl, ?_⟩, fun _ h => absurd h hinstrument, fun _ _ => rfl⟩
    rintro (h | ⟨-, h⟩)
    · exact h
    · exact absurd h hinstrument

/-! ## All positions -/

/-- What was copied of a list of positions over a book of blank ones. -/
structure CopiedAll (start : AccountBook) (rows : List Row) (book : AccountBook) : Prop where
  coherent : book.Forall Coherent
  has_iff : ∀ key, book.Has key ↔
    start.Has key ∨ start.HasInstrument key.hash ∧ ∃ row ∈ rows, row.1 = key
  value : ∀ {M : Type} [AddCommMonoid M] {f : ∀ {key : PositionKey}, Position key → M}, AddsUp f →
    ∀ key, start.HasInstrument key.hash →
      book.valueAt f key = Tally.total Sigma.fst (fun row => f row.2) key rows

variable {start : AccountBook} {rows : List Row}

theorem CopiedAll.hasInstrument_iff (h : CopiedAll start rows book) {hash : UInt32} :
    book.HasInstrument hash ↔ start.HasInstrument hash := by
  constructor
  · rintro ⟨direction, hhas⟩
    rcases (h.has_iff _).mp hhas with hhas | ⟨hinstrument, -⟩
    · exact ⟨direction, hhas⟩
    · exact hinstrument
  · rintro ⟨direction, hhas⟩
    exact ⟨direction, (h.has_iff _).mpr (.inl hhas)⟩

theorem copiedAll_nil (hstart : start.Forall Blank) : CopiedAll start [] start := by
  refine ⟨fun key p hp => (hstart key p hp).coherent, fun key => by simp, fun hf key _ => ?_⟩
  cases hp : start.state.positions.lookup key with
  | none => simp [valueAt, hp, Tally.total]
  | some p => simp [valueAt_of_lookup hp, hf.blank (hstart key p hp), Tally.total]

/-- One more position is copied. -/
theorem CopiedAll.concat (h : CopiedAll start rows book) (hrow : Copied book row book') :
    CopiedAll start (rows ++ [row]) book' := by
  refine ⟨hrow.coherent, fun key => ?_, fun {M _ f} hf key hkey => ?_⟩
  · rw [hrow.has_iff, h.has_iff, h.hasInstrument_iff]
    simp only [List.mem_append, List.mem_singleton, or_and_right, exists_or, exists_eq_left]
    constructor
    · rintro ((hhas | ⟨hinstrument, hmem⟩) | ⟨rfl, hinstrument⟩)
      · exact .inl hhas
      · exact .inr ⟨hinstrument, .inl hmem⟩
      · exact .inr ⟨hinstrument, .inr rfl⟩
    · rintro (hhas | ⟨hinstrument, hmem | rfl⟩)
      · exact .inl (.inl hhas)
      · exact .inl (.inr ⟨hinstrument, hmem⟩)
      · exact .inr ⟨rfl, hinstrument⟩
  · rw [Tally.total_append, Tally.total_cons, ← h.value hf key hkey]
    by_cases hne : row.1 = key
    · subst hne
      rw [hrow.value hf (h.hasInstrument_iff.mpr hkey), if_pos rfl]
      simp [Tally.total]
    · rw [valueAt_congr (hrow.others key (Ne.symm hne)), if_neg hne]
      simp [Tally.total]

theorem post_copyPositions (triggerTime : Int64) (strategyUid : UInt32) (hstart : start.Forall Blank)
    (hrows : ∀ row ∈ rows, Coherent row.2) :
    Post (rows.foldlM (copyPosition triggerTime strategyUid) start) (CopiedAll start rows)
      fun _ => ∃ row ∈ rows, Untyped start row := by
  refine post_foldlM_parts (copiedAll_nil hstart) fun done row todo book hsplit hdone => ?_
  have hmem : row ∈ rows := by simp [hsplit]
  refine (post_copyPosition triggerTime strategyUid hdone.coherent (hrows row hmem)).mono
    (fun book' hcopied => hdone.concat hcopied) fun _ huntyped => ⟨row, hmem, ?_⟩
  exact ⟨hdone.hasInstrument_iff.mp huntyped.hasInstrument,
    fun hhas => huntyped.missing ((hdone.has_iff _).mpr (.inl hhas)), huntyped.untyped⟩

end Book

/-! ## All accounts -/

section Accounts

variable {M : Type} [AddCommMonoid M] {book : AccountBook} {books : BookTable} {key : PositionKey}
  {f : ∀ {key : PositionKey}, Position key → M} (strategyUid : UInt32)
  (hasChannel : UInt32 → UInt32 → Bool) (order : Iteration (PositionAt ℚ))
  (bookOrder : Iteration fun _ : UInt32 => AccountBook)

/-- What the accounts that a strategy has a channel to hold together under a key. -/
def accountsTotal (books : BookTable) (key : PositionKey) (f : Position key → M) : M :=
  ((books.entries.filter fun entry => isMirrored strategyUid hasChannel entry.2).map fun entry =>
    (entry.2.state.positions.lookup key).elim 0 f).sum

theorem nodup_rows (book : AccountBook) :
    (book.rows order .Long ++ book.rows order .Short).Nodup := by
  refine ((order.nodup _).filter _).append ((order.nodup _).filter _) fun row hlong hshort => ?_
  have hrow := (Book.mem_rows.mp hlong).2
  rw [(Book.mem_rows.mp hshort).2] at hrow
  cases hrow

theorem mem_rows_both {row : Row} :
    row ∈ book.rows order .Long ++ book.rows order .Short ↔
      book.state.positions.lookup row.1 = some row.2 := by
  rw [List.mem_append, Book.mem_rows, Book.mem_rows, ← and_or_left, and_iff_left_iff_imp]
  intro _
  cases row.1.direction <;> simp

/-- The positions of a book come to what it has under each key. -/
theorem total_rows (book : AccountBook) :
    Tally.total Sigma.fst (fun row => f row.2) key (book.rows order .Long ++ book.rows order .Short) =
      book.valueAt f key := by
  cases hp : book.state.positions.lookup key with
  | none =>
      rw [Tally.total_of_notMem, Book.valueAt, hp, Option.elim_none]
      rintro ⟨key', p⟩ hrow rfl
      rw [(mem_rows_both order).mp hrow] at hp
      cases hp
  | some p =>
      have hentries : Tally.entries Sigma.fst key
          (book.rows order .Long ++ book.rows order .Short) = [⟨key, p⟩] := by
        have hnodup : (Tally.entries Sigma.fst key
            (book.rows order .Long ++ book.rows order .Short)).Nodup :=
          (nodup_rows order book).filter _
        rw [← List.perm_singleton, List.perm_ext_iff_of_nodup hnodup (List.nodup_singleton _)]
        rintro ⟨key', q⟩
        rw [Tally.mem_entries, mem_rows_both, List.mem_singleton]
        constructor
        · rintro ⟨hq, rfl⟩
          rw [hp] at hq
          cases hq
          rfl
        · rintro h
          cases h
          exact ⟨hp, rfl⟩
      rw [Tally.total, hentries, Book.valueAt_of_lookup hp]
      simp

variable (hstrategy : ∀ b, books.lookup strategyUid = some b →
    isMirrored strategyUid hasChannel b = false)
  (hbook : isMirrored strategyUid hasChannel book = false)

include hstrategy hbook

/-- The accounts are the same with another book of the strategy. -/
theorem lookup_insert_iff {uid : UInt32} {account : AccountBook}
    (haccount : isMirrored strategyUid hasChannel account = true) :
    (books.insert strategyUid book).lookup uid = some account ↔ books.lookup uid = some account := by
  by_cases heq : uid = strategyUid
  · rw [heq, Finmap.lookup_insert]
    constructor
    · intro h
      rw [← Option.some.inj h, hbook] at haccount
      cases haccount
    · intro h
      rw [hstrategy _ h] at haccount
      cases haccount
  · rw [Finmap.lookup_insert_of_ne _ heq]

/-- The positions that are copied come to what the accounts hold together. -/
theorem total_mirroredRows :
    Tally.total Sigma.fst (fun row => f row.2) key
        (mirroredRows strategyUid hasChannel order bookOrder (books.insert strategyUid book)) =
      accountsTotal strategyUid hasChannel books key f := by
  have haccounts : ((books.insert strategyUid book).entries.filter fun entry =>
      isMirrored strategyUid hasChannel entry.2 = true) =
        books.entries.filter fun entry => isMirrored strategyUid hasChannel entry.2 = true := by
    refine (Multiset.Nodup.ext ((Iteration.nodup_entries _).filter _)
      ((Iteration.nodup_entries _).filter _)).mpr fun entry => ?_
    rw [Multiset.mem_filter, Multiset.mem_filter, ← Finmap.lookup_eq_some_iff,
      ← Finmap.lookup_eq_some_iff]
    exact and_congr_left fun hentry => lookup_insert_iff strategyUid hasChannel hstrategy hbook hentry
  have hmet : ((bookOrder.entries (books.insert strategyUid book)).filter fun entry =>
      isMirrored strategyUid hasChannel entry.2 : Multiset (Sigma fun _ : UInt32 => AccountBook)) =
        books.entries.filter fun entry => isMirrored strategyUid hasChannel entry.2 = true := by
    rw [← haccounts, ← bookOrder.coe_entries, Multiset.filter_coe]
    simp only [Bool.decide_eq_true]
  rw [mirroredRows, Tally.total_flatMap]
  simp only [total_rows]
  rw [← Multiset.sum_coe, ← Multiset.map_coe, hmet]
  rfl

theorem mem_mirroredRows {row : Row} :
    row ∈ mirroredRows strategyUid hasChannel order bookOrder (books.insert strategyUid book) ↔
      ∃ uid account, books.lookup uid = some account ∧
        isMirrored strategyUid hasChannel account = true ∧
        account.state.positions.lookup row.1 = some row.2 := by
  rw [mirroredRows, List.mem_flatMap]
  simp only [List.mem_filter, bookOrder.mem_entries, mem_rows_both]
  constructor
  · rintro ⟨⟨uid, account⟩, ⟨hlookup, hmirrored⟩, hrow⟩
    exact ⟨uid, account,
      (lookup_insert_iff strategyUid hasChannel hstrategy hbook hmirrored).mp hlookup, hmirrored, hrow⟩
  · rintro ⟨uid, account, hlookup, hmirrored, hrow⟩
    exact ⟨⟨uid, account⟩,
      ⟨(lookup_insert_iff strategyUid hasChannel hstrategy hbook hmirrored).mpr hlookup, hmirrored⟩,
      hrow⟩

end Accounts

/-- A position of a strategy is what its accounts hold together. -/
structure Mirrors (strategyUid : UInt32) (hasChannel : UInt32 → UInt32 → Bool) (books : BookTable)
    {key : PositionKey} (p : Position key) : Prop where
  volume : p.volume = accountsTotal strategyUid hasChannel books key fun q => q.volume
  yesterdayVolume :
    p.yesterdayVolume = accountsTotal strategyUid hasChannel books key fun q => q.yesterdayVolume
  frozenTotal :
    p.frozenTotal = accountsTotal strategyUid hasChannel books key fun q => q.frozenTotal
  frozenYesterday :
    p.frozenYesterday = accountsTotal strategyUid hasChannel books key fun q => q.frozenYesterday
  avgOpenPrice : 0 < p.volume → p.avgOpenPrice =
    accountsTotal strategyUid hasChannel books key (fun q => q.avgOpenPrice * q.volume) /
      accountsTotal strategyUid hasChannel books key fun q => q.volume
  positionCostPrice : 0 < p.volume → p.positionCostPrice =
    accountsTotal strategyUid hasChannel books key (fun q => q.positionCostPrice * q.volume) /
      accountsTotal strategyUid hasChannel books key fun q => q.volume

/-- A strategy holds what its accounts hold together of the instruments that it held. -/
structure Mirrored (strategyUid : UInt32) (hasChannel : UInt32 → UInt32 → Bool) (books : BookTable)
    (before after : AccountBook) : Prop where
  mirrors : after.Forall fun p => Mirrors strategyUid hasChannel books p
  has_iff : ∀ key, after.Has key ↔ before.Has key ∨ before.HasInstrument key.hash ∧
    ∃ uid account, books.lookup uid = some account ∧
      isMirrored strategyUid hasChannel account = true ∧ account.Has key
  others : ∀ key, ¬ before.HasInstrument key.hash →
    after.state.positions.lookup key = before.state.positions.lookup key

section Mirror

variable {strategyUid : UInt32} {hasChannel : UInt32 → UInt32 → Bool} {books : BookTable}
  {book book' : AccountBook} {key : PositionKey} {app : App} {market : Market}
  {order : Iteration (PositionAt ℚ)} {bookOrder : Iteration fun _ : UInt32 => AccountBook}

theorem mirrors_of_value {p : Position key}
    (h : ∀ {M : Type} [AddCommMonoid M] {f : ∀ {key : PositionKey}, Position key → M}, AddsUp f →
      f p = accountsTotal strategyUid hasChannel books key f) :
    Mirrors strategyUid hasChannel books p := by
  have hvolume := h addsUp_volume
  have hne (hpos : 0 < p.volume) : (p.volume : ℚ) ≠ 0 := by exact_mod_cast hpos.ne'
  refine ⟨hvolume, h addsUp_yesterdayVolume, h addsUp_frozenTotal, h addsUp_frozenYesterday,
    fun hpos => ?_, fun hpos => ?_⟩
  · rw [← hvolume, eq_div_iff (hne hpos)]
    exact h addsUp_openCost
  · rw [← hvolume, eq_div_iff (hne hpos)]
    exact h addsUp_positionCost

theorem forall_blank_resetPositions (triggerTime : Int64) (book : AccountBook) :
    (resetPositions triggerTime book).Forall Blank := by
  intro key p hp
  rw [resetPositions, Book.lookup_mapPositions, Option.map_eq_some_iff] at hp
  obtain ⟨q, -, rfl⟩ := hp
  exact blank_resetPosition q

theorem has_resetPositions (triggerTime : Int64) :
    (resetPositions triggerTime book).Has key ↔ book.Has key := by
  simp [resetPositions, Book.Has]

theorem hasInstrument_resetPositions (triggerTime : Int64) {hash : UInt32} :
    (resetPositions triggerTime book).HasInstrument hash ↔ book.HasInstrument hash :=
  exists_congr fun _ => has_resetPositions triggerTime

section Copied

variable (hheld : ∀ b, books.lookup strategyUid = some b →
    isMirrored strategyUid hasChannel b = false)
  (hbook : isMirrored strategyUid hasChannel book = false) {triggerTime : Int64}

include hheld hbook

theorem mirrored_of_copiedAll (h : Book.CopiedAll (resetPositions triggerTime book)
      (mirroredRows strategyUid hasChannel order bookOrder
        (books.insert strategyUid (resetPositions triggerTime book))) book') :
    Mirrored strategyUid hasChannel books book (book'.update market triggerTime) := by
  have hreset : isMirrored strategyUid hasChannel (resetPositions triggerTime book) = false := hbook
  have hhas : ∀ key, book'.Has key ↔ book.Has key ∨ book.HasInstrument key.hash ∧
      ∃ uid account, books.lookup uid = some account ∧
        isMirrored strategyUid hasChannel account = true ∧ account.Has key := by
    intro key
    rw [h.has_iff, has_resetPositions, hasInstrument_resetPositions]
    refine or_congr_right (and_congr_right fun _ => ⟨?_, ?_⟩)
    · rintro ⟨row, hrow, rfl⟩
      obtain ⟨uid, account, hlookup, hmirrored, hp⟩ :=
        (mem_mirroredRows strategyUid hasChannel order bookOrder hheld hreset).mp hrow
      exact ⟨uid, account, hlookup, hmirrored, Option.isSome_of_eq_some hp⟩
    · rintro ⟨uid, account, hlookup, hmirrored, hp⟩
      obtain ⟨p, hp⟩ := Option.isSome_iff_exists.mp hp
      refine ⟨⟨key, p⟩, ?_, rfl⟩
      exact (mem_mirroredRows strategyUid hasChannel order bookOrder hheld hreset).mpr
        ⟨uid, account, hlookup, hmirrored, hp⟩
  refine ⟨fun key p hp => mirrors_of_value fun {M _ f} hf => ?_, hhas, fun key hkey => ?_⟩
  · have hinstrument : (resetPositions triggerTime book).HasInstrument key.hash :=
      h.hasInstrument_iff.mp ⟨key.direction, Option.isSome_of_eq_some hp⟩
    rw [← total_mirroredRows strategyUid hasChannel order bookOrder hheld hreset,
      ← h.value hf key hinstrument]
    exact (Book.valueAt_of_lookup hp).symm
  · have hnone : ¬ book.Has key := fun h => hkey ⟨key.direction, h⟩
    have hnone' : ¬ book'.Has key := by
      rw [hhas]
      rintro (h | ⟨h, -⟩)
      · exact hnone h
      · exact hkey h
    rw [Option.not_isSome_iff_eq_none.mp hnone]
    exact Option.not_isSome_iff_eq_none.mp hnone'

end Copied

/-- After mirroring every position of a strategy is what its accounts hold together, in whatever
order books and positions are met, and nothing else is changed.  Only where an account has an
instrument that the strategy has in the other direction alone, and whose type is not known, does
mirroring throw. -/
theorem positions_mirrored (triggerTime : Int64)
    (hbook : getBook app books.lookup strategyUid = .ok book)
    (hstrategy : book.state.asset.ledgerCategory = .Strategy)
    (hcoherent : ∀ uid account, books.lookup uid = some account →
      isMirrored strategyUid hasChannel account = true → account.Forall Coherent) :
    Post (mirrorPositions triggerTime strategyUid hasChannel app market order bookOrder books)
      (fun books' => (∃ after, books'.lookup strategyUid = some after ∧
          Mirrored strategyUid hasChannel books book after) ∧
        ∀ uid ≠ strategyUid, books'.lookup uid = books.lookup uid)
      fun _ => ∃ uid account row, books.lookup uid = some account ∧
        isMirrored strategyUid hasChannel account = true ∧
        account.state.positions.lookup row.1 = some row.2 ∧ book.Untyped row := by
  have hown : isMirrored strategyUid hasChannel book = false := by simp [isMirrored, hstrategy]
  have hheld : ∀ b, books.lookup strategyUid = some b →
      isMirrored strategyUid hasChannel b = false := by
    intro b hb
    rw [getBook, hb] at hbook
    rwa [Except.ok.inj hbook]
  have hreset : isMirrored strategyUid hasChannel (resetPositions triggerTime book) = false := hown
  have hrows : ∀ row ∈ mirroredRows strategyUid hasChannel order bookOrder
      (books.insert strategyUid (resetPositions triggerTime book)), Coherent row.2 := by
    intro row hrow
    obtain ⟨uid, account, hlookup, hmirrored, hp⟩ :=
      (mem_mirroredRows strategyUid hasChannel order bookOrder hheld hreset).mp hrow
    exact hcoherent uid account hlookup hmirrored row.1 row.2 hp
  have hcopied := Book.post_copyPositions triggerTime strategyUid
    (forall_blank_resetPositions triggerTime book) hrows
  rw [mirrorPositions, hbook, ok_bind]
  refine Post.bind (hcopied.mapError ?_) fun after hafter => ⟨?_, fun uid hne => ?_⟩
  · rintro _ ⟨row, hrow, huntyped⟩
    obtain ⟨uid, account, hlookup, hmirrored, hp⟩ :=
      (mem_mirroredRows strategyUid hasChannel order bookOrder hheld hreset).mp hrow
    refine ⟨uid, account, row, hlookup, hmirrored, hp, ?_, ?_, huntyped.untyped⟩
    · exact (hasInstrument_resetPositions triggerTime).mp huntyped.hasInstrument
    · exact fun hhas => huntyped.missing ((has_resetPositions triggerTime).mpr hhas)
  · exact ⟨_, Finmap.lookup_insert _, mirrored_of_copiedAll hheld hown hafter⟩
  · rw [Finmap.lookup_insert_of_ne _ hne, Finmap.lookup_insert_of_ne _ hne]

end Mirror

/-! ### Two accounts -/

/-- A book with one long position. -/
def exampleHolder (uid : UInt32) (category : LedgerCategory) (volume : ℤ) (price : ℚ) :
    AccountBook where
  state :=
    { asset := emptyAsset uid category "20260929"
      assetMargin := emptyAssetMargin uid category "20260929"
      positions := (∅ : Finmap (PositionAt ℚ)).insert (positionKey .Long "SHFE" "rb2410")
        { (SyncChannel.exampleRow "rb2410" volume).2 with avgOpenPrice := price }
      orderInputs := fun _ => none }
  orders := fun _ => none
  trades := fun _ => none

/-- A strategy 7 and the accounts 10 and 11. -/
def exampleTable : BookTable :=
  (((∅ : BookTable).insert 7 (exampleHolder 7 .Strategy 2 0)).insert 10
    (exampleHolder 10 .Account 5 10)).insert 11 (exampleHolder 11 .Account 3 18)

theorem coherent_exampleHolder {uid : UInt32} {category : LedgerCategory} {volume : ℤ} {price : ℚ}
    (h : 0 < volume) : (exampleHolder uid category volume price).Forall Coherent := by
  intro key p hp
  by_cases hkey : key = positionKey .Long "SHFE" "rb2410"
  · subst hkey
    rw [exampleHolder, Finmap.lookup_insert] at hp
    cases hp
    exact ⟨h.le, fun hzero => absurd hzero h.ne'⟩
  · rw [exampleHolder, Finmap.lookup_insert_of_ne _ hkey] at hp
    cases hp

theorem forall_insert {P : AccountBook → Prop} {books : BookTable} {uid uid' : UInt32}
    {book account : AccountBook} (h : (books.insert uid book).lookup uid' = some account)
    (hbook : P book) (hrest : books.lookup uid' = some account → P account) : P account := by
  by_cases heq : uid' = uid
  · subst heq
    rw [Finmap.lookup_insert] at h
    exact Option.some.inj h ▸ hbook
  · rw [Finmap.lookup_insert_of_ne _ heq] at h
    exact hrest h

theorem coherent_exampleTable {uid : UInt32} {account : AccountBook}
    (h : exampleTable.lookup uid = some account) : account.Forall Coherent := by
  refine forall_insert h (coherent_exampleHolder (by decide)) fun h => ?_
  refine forall_insert h (coherent_exampleHolder (by decide)) fun h => ?_
  exact forall_insert h (coherent_exampleHolder (by decide)) fun h => nomatch h

/-- The strategy mirrors the accounts. -/
def exampleMirror : Except Fault BookTable :=
  mirrorPositions 1 7 (fun _ _ => true) ⟨Ledger.exampleLocations, "20260929"⟩ noInstruments .sorted
    Ledger.byUid exampleTable

theorem positions_mirrored_example : ∃ books' after, exampleMirror = .ok books' ∧
    books'.lookup 7 = some after ∧ Mirrored 7 (fun _ _ => true) exampleTable
      (exampleHolder 7 .Strategy 2 0) after ∧
    (after.shown (positionKey .Long "SHFE" "rb2410")).volume = 8 ∧
    (after.shown (positionKey .Long "SHFE" "rb2410")).avgOpenPrice = 13 := by
  obtain ⟨books', hrun, htest⟩ := exists_of_any (x := exampleMirror)
    (p := fun books' => (books'.lookup 7).any fun after =>
      (after.shown (positionKey .Long "SHFE" "rb2410")).volume = 8 &&
        (after.shown (positionKey .Long "SHFE" "rb2410")).avgOpenPrice = 13) (by decide +kernel)
  obtain ⟨⟨after, hafter, hmirrored⟩, -⟩ := (positions_mirrored 1 rfl rfl
    fun uid account hlookup _ => coherent_exampleTable hlookup).of_ok hrun
  rw [hafter, Option.any_some, Bool.and_eq_true, decide_eq_true_eq, decide_eq_true_eq] at htest
  exact ⟨books', after, hrun, hafter, hmirrored, htest⟩

/-- A long position of an account. -/
def exampleLong (volume : ℤ) (price : Binary64) : Row Binary64 :=
  ⟨_, { (emptyBook 10 .Account "20260929").newPosition .Long "SHFE" "rb2410" .Future with
    volume := volume
    avgOpenPrice := price }⟩

/-- A strategy that holds nothing yet copies long positions of accounts. -/
def exampleCopied (rows : List (Row Binary64)) : ThrowsOf Binary64 (AccountBook Binary64) :=
  let book := emptyBook 7 .Strategy "20260929"
  rows.foldlM (copyPosition 1 7)
    (book.setPosition (book.newPosition .Long "SHFE" "rb2410" .Future))

/-- The price of what a strategy copied. -/
def copiedPrice (rows : List (Row Binary64)) : Option Binary64 :=
  (exampleCopied rows).toOption.map fun book => (book.position .Long "SHFE" "rb2410").avgOpenPrice

/-- With numbers that are rounded, what is mirrored depends on the order in which the accounts are met,
and it may have another price than all of the accounts have. -/
theorem positions_mirrored_rounds : ∃ book book' book'' : AccountBook Binary64,
    exampleCopied [exampleLong 100 10, exampleLong 200 (1001 / 100), exampleLong 400 (1002 / 100)] =
        .ok book ∧
      exampleCopied [exampleLong 400 (1002 / 100), exampleLong 200 (1001 / 100), exampleLong 100 10] =
        .ok book' ∧
      (book.position .Long "SHFE" "rb2410").avgOpenPrice ≠
        (book'.position .Long "SHFE" "rb2410").avgOpenPrice ∧
      exampleCopied [exampleLong 300 (1112 / 100), exampleLong 700 (1112 / 100)] = .ok book'' ∧
      (book''.position .Long "SHFE" "rb2410").avgOpenPrice ≠ 1112 / 100 := by
  obtain ⟨book, hbook⟩ := exists_of_isOk (x := exampleCopied
    [exampleLong 100 10, exampleLong 200 (1001 / 100), exampleLong 400 (1002 / 100)])
    (by decide +kernel)
  obtain ⟨book', hbook'⟩ := exists_of_isOk (x := exampleCopied
    [exampleLong 400 (1002 / 100), exampleLong 200 (1001 / 100), exampleLong 100 10])
    (by decide +kernel)
  obtain ⟨book'', hbook'', hprice⟩ := exists_of_any
    (x := exampleCopied [exampleLong 300 (1112 / 100), exampleLong 700 (1112 / 100)])
    (p := fun book => (book.position .Long "SHFE" "rb2410").avgOpenPrice ≠ 1112 / 100)
    (by decide +kernel)
  have hdiffer : copiedPrice
        [exampleLong 100 10, exampleLong 200 (1001 / 100), exampleLong 400 (1002 / 100)] ≠
      copiedPrice
        [exampleLong 400 (1002 / 100), exampleLong 200 (1001 / 100), exampleLong 100 10] := by
    decide +kernel
  rw [copiedPrice, copiedPrice, hbook, hbook'] at hdiffer
  exact ⟨book, book', book'', hbook, hbook', fun heq => hdiffer (congrArg some heq), hbook'',
    of_decide_eq_true hprice⟩

end Kungfu.Wingchun
