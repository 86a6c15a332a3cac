import Kungfu.Wingchun.Routes
import Mathlib.Data.List.Induction

/-!
# Synchronization of positions

A trader sends the positions of an account as a stream of rows with an end.  Nothing in the
channel says that a stream starts, so that the rows of a stream that was given up stay in
the replica, where the next stream finds them.  After the end of a stream the book holds
exactly what the stream says if and only if nothing is left there of an instrument that the
stream does not name.
-/

namespace Kungfu.Longfist.Position

variable {key : PositionKey}

/-- `volume` and `yesterday_volume`. -/
def volumes (position : Position key) : ℤ × ℤ := (position.volume, position.yesterdayVolume)

/-- The exchange and the instrument. -/
def instrument (position : Position key) : String × String :=
  (position.exchangeId, position.instrumentId)

end Kungfu.Longfist.Position

namespace Kungfu.Wingchun

open Longfist Logic Outcome

theorem positionKey_eq {key : PositionKey} (position : Position key) :
    positionKey position.direction position.exchangeId position.instrumentId = key := by
  simp [positionKey, position.hashed, Position.direction]

namespace Book

variable {book book' target target' source : AccountBook} {key : PositionKey} {row : Row}
  {rows : List Row} {direction : Direction} {instrument : String × String} {changed : Bool}
  {order : Iteration (PositionAt ℚ)}

/-! ## Volumes -/

/-- The volumes under a key, which are 0 where there is no position. -/
def volumesAt (book : AccountBook) (key : PositionKey) : ℤ × ℤ :=
  ((book.state.positions.lookup key).map Position.volumes).getD (0, 0)

/-- The volumes of an instrument, which are 0 if the position is of another one. -/
def held (book : AccountBook) (direction : Direction) (instrument : String × String) : ℤ × ℤ :=
  match book.state.positions.lookup (positionKey direction instrument.1 instrument.2) with
  | some position => if position.instrument = instrument then position.volumes else (0, 0)
  | none => (0, 0)

theorem volumesAt_of_lookup {position : Position key}
    (h : book.state.positions.lookup key = some position) : book.volumesAt key = position.volumes := by
  simp [volumesAt, h]

theorem volumesAt_of_lookup_none (h : book.state.positions.lookup key = none) :
    book.volumesAt key = (0, 0) := by
  simp [volumesAt, h]

/-! ## Empty positions

To ask for a position adds an empty one at most. -/

/-- A book with empty positions added. -/
def Padded (book book' : AccountBook) : Prop :=
  ∀ key, book'.state.positions.lookup key = book.state.positions.lookup key ∨
    book.state.positions.lookup key = none ∧
      ∃ position, book'.state.positions.lookup key = some position ∧ position.volumes = (0, 0)

theorem Padded.refl (book : AccountBook) : Padded book book := fun _ => .inl rfl

theorem Padded.trans {book'' : AccountBook} (h : Padded book book') (h' : Padded book' book'') :
    Padded book book'' := by
  intro key
  rcases h' key with heq | ⟨hnone, position, hsome, hzero⟩
  · rw [heq]
    exact h key
  · refine .inr ⟨?_, position, hsome, hzero⟩
    rcases h key with heq | ⟨-, p, hp, -⟩
    · rw [← heq, hnone]
    · simp [hnone] at hp

theorem Padded.volumesAt (h : Padded book book') (key : PositionKey) :
    book'.volumesAt key = book.volumesAt key := by
  rcases h key with heq | ⟨hnone, position, hsome, hzero⟩
  · simp [Book.volumesAt, heq]
  · rw [volumesAt_of_lookup hsome, volumesAt_of_lookup_none hnone, hzero]

theorem Padded.held (h : Padded book book') :
    book'.held direction instrument = book.held direction instrument := by
  unfold Book.held
  rcases h (positionKey direction instrument.1 instrument.2) with
    heq | ⟨hnone, position, hsome, hzero⟩
  · rw [heq]
  · simp [hnone, hsome, hzero]

/-- To ask for the position of a row changes nothing elsewhere. -/
theorem getPositionFor_spec (h : book.getPositionFor row = .ok book') :
    Padded book book' ∧
      ∀ key ≠ row.1, book'.state.positions.lookup key = book.state.positions.lookup key := by
  obtain ⟨p, hp, rfl⟩ := gives_of_getPosition h
  constructor
  · intro key
    by_cases heq : key = positionKey row.2.direction row.2.exchangeId row.2.instrumentId
    · subst heq
      rcases hp with hp | ⟨hnone, type, -, rfl⟩
      · exact .inl (by rw [lookup_setPosition, hp])
      · exact .inr ⟨hnone, _, lookup_setPosition _, rfl⟩
    · exact .inl (lookup_setPosition_of_ne p heq)
  · intro key hne
    exact lookup_setPosition_of_ne p (by rwa [positionKey_eq])

/-- The volumes of the position that a row is compared with. -/
theorem volumes_positionFor (book : AccountBook) (row : Row) :
    (book.positionFor row).volumes = book.volumesAt row.1 := by
  have hkey : book.volumesAt row.1 =
      book.volumesAt (positionKey row.2.direction row.2.exchangeId row.2.instrumentId) := by
    rw [positionKey_eq]
  rw [hkey]
  unfold positionFor position volumesAt
  cases book.state.positions.lookup
    (positionKey row.2.direction row.2.exchangeId row.2.instrumentId) <;> rfl

/-! ## Comparing -/

/-- Two books are compared row by row; what is made on the way is empty. -/
theorem positionCompare_spec (h : positionCompare rows target = .ok (changed, target')) :
    Padded target target' ∧
      (changed = false ↔ ∀ row ∈ rows, target.volumesAt row.1 = row.2.volumes) := by
  induction rows generalizing target with
  | nil =>
      cases h
      exact ⟨.refl _, by simp⟩
  | cons row rows ih =>
      obtain ⟨target₁, hget, hrest⟩ := Outcome.exists_of_bind h
      have hpadded := (getPositionFor_spec hget).1
      have hvolumes : (target₁.positionFor row).volumes = target.volumesAt row.1 := by
        rw [volumes_positionFor, hpadded.volumesAt]
      have hiff : (row.2.volume ≠ (target₁.positionFor row).volume ∨
          row.2.yesterdayVolume ≠ (target₁.positionFor row).yesterdayVolume) ↔
          ¬ target.volumesAt row.1 = row.2.volumes := by
        rw [← hvolumes]
        simp only [Position.volumes, Prod.mk.injEq]
        omega
      simp only [hiff] at hrest
      by_cases hsame : target.volumesAt row.1 = row.2.volumes
      · rw [if_neg (by simp [hsame])] at hrest
        obtain ⟨hpadded', hchanged⟩ := ih hrest
        refine ⟨hpadded.trans hpadded', hchanged.trans ?_⟩
        simp [hsame, hpadded.volumesAt]
      · rw [if_pos (by simp [hsame])] at hrest
        cases hrest
        exact ⟨hpadded, by simp [hsame]⟩

theorem mem_rows : row ∈ book.rows order direction ↔
    book.state.positions.lookup row.1 = some row.2 ∧ row.1.direction = direction := by
  simp [Book.rows, order.mem_entries]

/-- Both sides of a book are compared. -/
theorem compareTo_spec (h : compareTo order source target = .ok (changed, target')) :
    Padded target target' ∧ (changed = false ↔
      ∀ row : Row, source.state.positions.lookup row.1 = some row.2 →
        target.volumesAt row.1 = row.2.volumes) := by
  obtain ⟨⟨changedLong, target₁⟩, hlong, hrest⟩ := Outcome.exists_of_bind h
  obtain ⟨hpadded, hchangedLong⟩ := positionCompare_spec hlong
  simp only [mem_rows] at hchangedLong
  cases changedLong with
  | true =>
      cases hrest
      refine ⟨hpadded, ?_⟩
      simp only [Bool.true_eq_false, false_iff] at hchangedLong ⊢
      exact fun hall => hchangedLong fun row hrow => hall row hrow.1
  | false =>
      obtain ⟨hpadded', hchanged⟩ := positionCompare_spec hrest
      simp only [mem_rows, hpadded.volumesAt] at hchanged
      refine ⟨hpadded.trans hpadded', hchanged.trans ⟨fun hall row hrow => ?_, ?_⟩⟩
      · cases hdirection : row.1.direction with
        | Long => exact hchangedLong.mp rfl row ⟨hrow, hdirection⟩
        | Short => exact hall row ⟨hrow, hdirection⟩
      · exact fun hall row hrow => hall row hrow.1

/-- The books are told to differ if there is a key under which they do. -/
theorem positionChanged_spec {oldBook newBook old new : AccountBook}
    (h : positionChanged order oldBook newBook = .ok (changed, old, new)) :
    Padded oldBook old ∧ Padded newBook new ∧
      (changed = false ↔ ∀ key, oldBook.volumesAt key = newBook.volumesAt key) := by
  obtain ⟨⟨changed₁, old₁⟩, hold, hrest⟩ := Outcome.exists_of_bind h
  obtain ⟨hpaddedOld, hchanged₁⟩ := compareTo_spec hold
  cases changed₁ with
  | true =>
      cases hrest
      refine ⟨hpaddedOld, .refl _, ?_⟩
      simp only [Bool.true_eq_false, false_iff] at hchanged₁ ⊢
      intro hall
      refine hchanged₁ fun row hrow => ?_
      rw [hall, volumesAt_of_lookup hrow]
  | false =>
      obtain ⟨⟨changed₂, new₂⟩, hnew, hret⟩ := Outcome.exists_of_bind hrest
      cases hret
      obtain ⟨hpaddedNew, hchanged₂⟩ := compareTo_spec hnew
      refine ⟨hpaddedOld, hpaddedNew, hchanged₂.trans ⟨fun hall key => ?_, fun hall row hrow => ?_⟩⟩
      · cases hlookup : newBook.state.positions.lookup key with
        | some position =>
            rw [volumesAt_of_lookup hlookup]
            exact hchanged₁.mp rfl ⟨key, position⟩ hlookup
        | none =>
            cases hlookup' : old.state.positions.lookup key with
            | some position =>
                rw [← hpaddedOld.volumesAt, volumesAt_of_lookup hlookup']
                exact (hall ⟨key, position⟩ hlookup').symm
            | none =>
                rw [← hpaddedOld.volumesAt, volumesAt_of_lookup_none hlookup,
                  volumesAt_of_lookup_none hlookup']
      · rw [← hall, ← hpaddedOld.volumesAt, volumesAt_of_lookup hrow]

/-! ## Mirroring -/

/-- The row takes its place, and nothing else changes. -/
theorem lookup_assign (h : book.assign row = .ok book') (key : PositionKey) :
    book'.state.positions.lookup key =
      if hkey : key = row.1 then some (hkey ▸ row.2) else book.state.positions.lookup key := by
  obtain ⟨book₁, hget, hret⟩ := Outcome.exists_of_bind h
  cases hret
  by_cases hkey : key = row.1
  · subst hkey
    rw [lookup_setPosition, dif_pos rfl]
  · rw [lookup_setPosition_of_ne row.2 hkey, dif_neg hkey, (getPositionFor_spec hget).2 key hkey]

/-- A book that mirrors another has its positions. -/
theorem lookup_mirrorPositionFrom (h : book.mirrorPositionFrom order source = .ok book')
    (key : PositionKey) :
    book'.state.positions.lookup key = source.state.positions.lookup key := by
  have hrows : ∀ row ∈ source.rows order .Long ++ source.rows order .Short,
      source.state.positions.lookup row.1 = some row.2 := by
    intro row hrow
    rcases List.mem_append.mp hrow with hrow | hrow <;> exact (mem_rows.mp hrow).1
  -- what was copied is as in the source, and the rest is empty
  have hinv := Outcome.foldlM_invariant
    (I := fun done (b : AccountBook) => ∀ key, b.state.positions.lookup key =
      if ∃ row ∈ done, row.1 = key then source.state.positions.lookup key else none)
    (fun key => by simp) (fun done row todo b b' hsplit hI hassign key => ?_) h key
  · cases hlookup : source.state.positions.lookup key with
    | none => rw [hinv, hlookup, ite_self]
    | some position =>
        rw [hinv, hlookup, if_pos]
        refine ⟨⟨key, position⟩, ?_, rfl⟩
        rw [List.mem_append, mem_rows, mem_rows]
        cases hdirection : key.direction
        · exact .inl ⟨hlookup, rfl⟩
        · exact .inr ⟨hlookup, rfl⟩
  · rw [lookup_assign hassign]
    by_cases hkey : key = row.1
    · subst hkey
      rw [dif_pos rfl, if_pos ⟨row, by simp, rfl⟩, hrows row (by rw [hsplit]; simp)]
    · have hseen : (∃ r ∈ done ++ [row], r.1 = key) ↔ ∃ r ∈ done, r.1 = key := by
        simp [List.mem_append, or_and_right, exists_or, Ne.symm hkey]
      rw [dif_neg hkey, hI]
      simp only [hseen]

/-! ## The end of a stream -/

/-- Positions under one key are of one instrument. -/
def SameInstruments (book book' : AccountBook) : Prop :=
  ∀ key position position', book.state.positions.lookup key = some position →
    book'.state.positions.lookup key = some position' → position.instrument = position'.instrument

/-- Books with the same volumes hold the same of every instrument. -/
theorem held_eq_of_volumesAt_eq (hsame : SameInstruments book book')
    (h : ∀ key, book.volumesAt key = book'.volumesAt key) :
    book.held direction instrument = book'.held direction instrument := by
  have hkey := h (positionKey direction instrument.1 instrument.2)
  unfold held
  cases hlookup : book.state.positions.lookup (positionKey direction instrument.1 instrument.2) with
  | none =>
      rw [volumesAt_of_lookup_none hlookup] at hkey
      cases hlookup' :
          book'.state.positions.lookup (positionKey direction instrument.1 instrument.2) with
      | none => rfl
      | some position =>
          rw [volumesAt_of_lookup hlookup'] at hkey
          simp [← hkey]
  | some position =>
      rw [volumesAt_of_lookup hlookup] at hkey
      cases hlookup' :
          book'.state.positions.lookup (positionKey direction instrument.1 instrument.2) with
      | none =>
          rw [volumesAt_of_lookup_none hlookup'] at hkey
          simp [hkey]
      | some position' =>
          rw [volumesAt_of_lookup hlookup'] at hkey
          simp [hsame _ _ _ hlookup hlookup', hkey]

/-- After the comparison the book holds of every instrument what the replica holds. -/
theorem held_resync {oldBook newBook : AccountBook} (hsame : SameInstruments oldBook newBook)
    (h : Bookkeeper.resync order oldBook newBook = .ok book) :
    book.held direction instrument = newBook.held direction instrument := by
  obtain ⟨⟨changed, old, new⟩, hchanged, hrest⟩ := Outcome.exists_of_bind h
  obtain ⟨hpaddedOld, hpaddedNew, hiff⟩ := positionChanged_spec hchanged
  cases changed with
  | true =>
      have hlookup := lookup_mirrorPositionFrom hrest
      rw [← hpaddedNew.held]
      simp only [held, hlookup]
  | false =>
      cases hrest
      rw [hpaddedOld.held]
      exact held_eq_of_volumesAt_eq hsame (hiff.mp rfl)

end Book

/-! ## Streams -/

/-- The row gives the volumes of an instrument. -/
def Names (direction : Direction) (instrument : String × String) (row : Row) : Prop :=
  row.1.direction = direction ∧ row.2.instrument = instrument

instance (direction : Direction) (instrument : String × String) :
    DecidablePred (Names direction instrument) :=
  fun _ => inferInstanceAs (Decidable (_ ∧ _))

/-- The volumes that a stream gives an instrument: those of its last row for it, and 0 if it
does not name it. -/
def streamed (rows : List Row) (direction : Direction) (instrument : String × String) : ℤ × ℤ :=
  match rows.reverse.find? fun row => Names direction instrument row with
  | some row => row.2.volumes
  | none => (0, 0)

/-- The rows of a stream, filed. -/
def collect (rows : List Row) : Finmap (PositionAt ℚ) :=
  rows.foldl (fun positions row => positions.insert row.1 row.2) ∅

section Streams

variable {rows : List Row} {row : Row} {direction : Direction} {instrument : String × String}
  {key : PositionKey}

theorem key_of_names (h : Names direction instrument row) :
    row.1 = positionKey direction instrument.1 instrument.2 := by
  obtain ⟨rfl, rfl⟩ := h
  exact (positionKey_eq row.2).symm

theorem collect_concat (rows : List Row) (row : Row) :
    collect (rows ++ [row]) = (collect rows).insert row.1 row.2 := by
  simp [collect]

theorem streamed_concat (rows : List Row) (row : Row) :
    streamed (rows ++ [row]) direction instrument =
      if Names direction instrument row then row.2.volumes else streamed rows direction instrument := by
  by_cases h : Names direction instrument row <;> simp [streamed, h]

theorem streamed_of_not_names (h : ∀ row ∈ rows, ¬ Names direction instrument row) :
    streamed rows direction instrument = (0, 0) := by
  have hfind : rows.reverse.find? (fun row => Names direction instrument row) = none := by
    simpa using h
  simp [streamed, hfind]

theorem exists_lookup_collect (h : row ∈ rows) :
    ∃ position, (collect rows).lookup row.1 = some position := by
  induction rows using List.reverseRecOn with
  | nil => cases h
  | append_singleton rows last ih =>
      rw [collect_concat]
      by_cases hkey : row.1 = last.1
      · rw [hkey]
        exact ⟨last.2, Finmap.lookup_insert _⟩
      · rw [Finmap.lookup_insert_of_ne _ hkey]
        rcases List.mem_append.mp h with h | h
        · exact ih h
        · rw [List.mem_singleton.mp h] at hkey
          exact absurd rfl hkey

theorem mem_of_lookup_collect {position : Position key}
    (h : (collect rows).lookup key = some position) : ⟨key, position⟩ ∈ rows := by
  induction rows using List.reverseRecOn with
  | nil => cases h
  | append_singleton rows row ih =>
      rw [collect_concat] at h
      by_cases hkey : key = row.1
      · subst hkey
        rw [Finmap.lookup_insert] at h
        cases h
        simp
      · rw [Finmap.lookup_insert_of_ne _ hkey] at h
        exact List.mem_append_left _ (ih h)

/-- A book with the positions of a stream alone holds nothing that the stream does not name. -/
theorem held_of_collect {book : AccountBook} (h : book.state.positions = collect rows)
    (hnames : ∀ row ∈ rows, ¬ Names direction instrument row) :
    book.held direction instrument = (0, 0) := by
  unfold Book.held
  rw [h]
  cases hlookup : (collect rows).lookup (positionKey direction instrument.1 instrument.2) with
  | none => rfl
  | some position =>
      have hne : position.instrument ≠ instrument := fun heq =>
        hnames _ (mem_of_lookup_collect hlookup) ⟨rfl, heq⟩
      simp [hne]

/-- A position that is filed under an instrument's key and is of the instrument has the
volumes that the stream gives it. -/
theorem streamed_eq_of_lookup_collect
    {position : Position (positionKey direction instrument.1 instrument.2)}
    (h : (collect rows).lookup (positionKey direction instrument.1 instrument.2) = some position)
    (hinstrument : position.instrument = instrument) :
    streamed rows direction instrument = position.volumes := by
  induction rows using List.reverseRecOn with
  | nil => cases h
  | append_singleton rows row ih =>
      rw [collect_concat] at h
      rw [streamed_concat]
      by_cases hkey : positionKey direction instrument.1 instrument.2 = row.1
      · obtain ⟨key, p⟩ := row
        subst hkey
        rw [Finmap.lookup_insert] at h
        cases h
        rw [if_pos ⟨rfl, hinstrument⟩]
      · rw [Finmap.lookup_insert_of_ne _ hkey] at h
        rw [if_neg fun hnames => hkey (key_of_names hnames).symm]
        exact ih h

end Streams

/-! ## Channels -/

/-- What a bookkeeper handles. -/
inductive SyncEvent
  /-- The trader starts with the positions of a holder anew, which leaves no trace. -/
  | begins (holderUid : UInt32)
  | position (row : Row)
  | positionEnd (holderUid : UInt32) (order : Iteration (PositionAt ℚ))
  | asset (asset : Asset)
  | assetMargin (assetMargin : AssetMargin)
  | updateAsset (asset : Asset)
  | updateAssetMargin (assetMargin : AssetMargin)
  | updatePosition (row : Row)
  | updatePositionEnd (now : Int64) (holderUid : UInt32)
  | updateBook (u : Update)
  | dropBook (uid : UInt32)
  /-- Whatever another handler makes of the books. -/
  | other (books : Books)

namespace Bookkeeper

variable (app : App) (market : Market)

/-- What a bookkeeper does with an event. -/
def handle (keeper : Bookkeeper) : SyncEvent → Except Fault Bookkeeper
  | .begins _ => .ok keeper
  | .position row => keeper.trySyncPosition app row
  | .positionEnd holderUid order => trySyncPositionEnd app order keeper holderUid
  | .asset asset => keeper.trySyncAsset app asset
  | .assetMargin assetMargin => keeper.trySyncAssetMargin app assetMargin
  | .updateAsset asset => keeper.tryUpdateAsset app asset
  | .updateAssetMargin assetMargin => keeper.tryUpdateAssetMargin app assetMargin
  | .updatePosition row => tryUpdatePosition app market keeper row
  | .updatePositionEnd now holderUid => tryUpdatePositionEnd app market now keeper holderUid
  | .updateBook u => do
      let books ← (Wingchun.updateBook app market u keeper.books).mapError (·.fault)
      return { keeper with books := books }
  | .dropBook uid => .ok (keeper.dropBook uid)
  | .other books => .ok { keeper with books := books }

end Bookkeeper

/-- A bookkeeper and the streams that traders send it. -/
structure SyncChannel where
  keeper : Bookkeeper
  /-- The rows of the stream of a holder that is under way. -/
  stream : UInt32 → List Row
  /-- The rows of the latest stream of a holder that was sent to its end. -/
  latest : UInt32 → List Row

namespace SyncChannel

/-- A bookkeeper that has just started has no replicas. -/
def start (keeper : Bookkeeper) : SyncChannel :=
  ⟨{ keeper with booksReplica := fun _ => none }, fun _ => [], fun _ => []⟩

variable (app : App) (market : Market)

def streamAfter (stream : UInt32 → List Row) : SyncEvent → UInt32 → List Row
  | .begins holderUid => Function.update stream holderUid []
  | .position row => Function.update stream row.2.holderUid (stream row.2.holderUid ++ [row])
  | .positionEnd holderUid _ => Function.update stream holderUid []
  | _ => stream

def latestAfter (c : SyncChannel) : SyncEvent → UInt32 → List Row
  | .positionEnd holderUid _ => Function.update c.latest holderUid (c.stream holderUid)
  | _ => c.latest

def step (c : SyncChannel) (event : SyncEvent) : Except Fault SyncChannel := do
  let keeper ← c.keeper.handle app market event
  return ⟨keeper, streamAfter c.stream event, c.latestAfter event⟩

/-- One event after another, until one throws, which stops the app. -/
def run (events : List SyncEvent) (c : SyncChannel) : Except Fault SyncChannel :=
  events.foldlM (step app market) c

/-- The book of a holder has exactly the volumes of the latest stream. -/
def Exact (c : SyncChannel) (holderUid : UInt32) : Prop :=
  ∃ book, c.keeper.books holderUid = some book ∧
    ∀ direction instrument,
      book.held direction instrument = streamed (c.latest holderUid) direction instrument

/-- Nothing is left in the replica of an instrument that the stream does not name. -/
def Fresh (c : SyncChannel) (holderUid : UInt32) : Prop :=
  ∀ replica, c.keeper.booksReplica holderUid = some replica → ∀ direction instrument,
    (∀ row ∈ c.stream holderUid, ¬ Names direction instrument row) →
      replica.held direction instrument = (0, 0)

/-- Under one key there is one instrument, in the stream, the replica and the book. -/
structure Apart (c : SyncChannel) (holderUid : UInt32) : Prop where
  stream : ∀ replica, c.keeper.booksReplica holderUid = some replica →
    ∀ row ∈ c.stream holderUid, ∀ position, replica.state.positions.lookup row.1 = some position →
      position.instrument = row.2.instrument
  book : ∀ book replica, c.keeper.books holderUid = some book →
    c.keeper.booksReplica holderUid = some replica → book.SameInstruments replica

/-! ### Steps -/

variable {app : App} {market : Market} {keeper keeper' : Bookkeeper} {c c' : SyncChannel}
  {holderUid uid : UInt32} {order : Iteration (PositionAt ℚ)} {row : Row} {event : SyncEvent}

/-- The positions of the replicas stay, and so does the switch. -/
def KeepsReplicas (keeper keeper' : Bookkeeper) : Prop :=
  keeper'.syncPosition = keeper.syncPosition ∧
    ∀ uid replica, keeper.booksReplica uid = some replica →
      ∃ replica', keeper'.booksReplica uid = some replica' ∧
        replica'.state.positions = replica.state.positions

theorem exists_of_onBook {books books' : Books} {f : AccountBook → Throws AccountBook}
    (h : Bookkeeper.onBook app books uid f = .ok books') :
    ∃ book book', getBook app books uid = .ok book ∧ f book = .ok book' ∧
      books' = Function.update books uid (some book') := by
  obtain ⟨book, hbook, h⟩ := Outcome.exists_of_bind h
  obtain ⟨book', hbook', h⟩ := Outcome.exists_of_bind h
  cases h
  exact ⟨book, book', hbook, Outcome.mapError_eq_ok.mp hbook', rfl⟩

/-- A handler that keeps the positions of the replicas. -/
abbrev Keeps (keeper : Bookkeeper) (x : Except Fault Bookkeeper) : Prop :=
  Post x (KeepsReplicas keeper) fun _ => True

theorem keeps_self (keeper : Bookkeeper) : Keeps keeper (.ok keeper) :=
  ⟨rfl, fun _ replica hreplica => ⟨replica, hreplica, rfl⟩⟩

/-- A handler that changes the books only. -/
theorem keeps_books (keeper : Bookkeeper) (x : Except Fault Books) :
    Keeps keeper (do let books ← x; return { keeper with books := books }) := by
  cases x with
  | ok books => exact keeps_self keeper
  | error fault => trivial

/-- A handler that changes a replica but not its positions, and then the books. -/
theorem keeps_replica (app : App) (keeper : Bookkeeper) (uid : UInt32) (f : AccountBook → AccountBook)
    (hf : ∀ book, (f book).state.positions = book.state.positions) (x : Except Fault Books) :
    Keeps keeper (do
      let replica ← Bookkeeper.onBook app keeper.booksReplica uid fun book => .ok (f book)
      let books ← x
      return { keeper with booksReplica := replica, books := books }) := by
  cases hreplicas : Bookkeeper.onBook app keeper.booksReplica uid fun book => .ok (f book) with
  | error fault => trivial
  | ok replicas =>
      cases x with
      | error fault => trivial
      | ok books =>
          obtain ⟨book, book', hbook, hf', rfl⟩ := exists_of_onBook hreplicas
          cases hf'
          refine ⟨rfl, fun uid' replica hreplica => ?_⟩
          by_cases huid : uid' = uid
          · subst huid
            rw [getBook, hreplica] at hbook
            cases hbook
            exact ⟨_, Function.update_self .., hf _⟩
          · exact ⟨replica, by simp [huid, hreplica], rfl⟩

/-- The events of the stream itself. -/
def OfStream : SyncEvent → Prop
  | .position _ | .positionEnd _ _ => True
  | _ => False

/-- All other events leave the positions of the replicas alone. -/
theorem keeps_handle (keeper : Bookkeeper) (hevent : ¬ OfStream event) :
    Keeps keeper (keeper.handle app market event) := by
  cases event with
  | position row => exact absurd trivial hevent
  | positionEnd holderUid order => exact absurd trivial hevent
  | begins holderUid => exact keeps_self keeper
  | asset asset =>
      exact post_ite (fun _ => keeps_self keeper) fun _ =>
        keeps_replica app keeper asset.holderUid (·.setAsset asset) (fun _ => rfl) _
  | assetMargin assetMargin =>
      exact post_ite (fun _ => keeps_self keeper) fun _ =>
        keeps_replica app keeper assetMargin.holderUid (·.setAssetMargin assetMargin) (fun _ => rfl) _
  | updateAsset asset =>
      exact post_ite (fun _ => keeps_books keeper _) fun _ => keeps_self keeper
  | updateAssetMargin assetMargin =>
      exact post_ite (fun _ => keeps_books keeper _) fun _ => keeps_self keeper
  | updatePosition row =>
      exact post_ite (fun _ => keeps_books keeper _) fun _ => keeps_self keeper
  | updatePositionEnd now holderUid => exact keeps_books keeper _
  | updateBook u => exact keeps_books keeper _
  | dropBook uid => exact keeps_self keeper
  | other books => exact keeps_self keeper

/-- The position of a row is in the replica. -/
theorem booksReplica_of_trySyncPosition (hsync : keeper.syncPosition = true)
    (hknown : Bookkeeper.hasLocation app row.2.holderUid = true)
    (h : keeper.trySyncPosition app row = .ok keeper') :
    keeper'.syncPosition = true ∧ ∃ book replica, getBook app keeper.booksReplica row.2.holderUid = .ok book ∧
      book.assign row = .ok replica ∧
      keeper'.booksReplica = Function.update keeper.booksReplica row.2.holderUid (some replica) := by
  rw [Bookkeeper.trySyncPosition, if_neg (by simp [hsync, hknown])] at h
  obtain ⟨replicas, hreplicas, h⟩ := exists_of_bind h
  cases h
  obtain ⟨book, replica, hbook, hreplica, rfl⟩ := exists_of_onBook hreplicas
  exact ⟨hsync, book, replica, hbook, hreplica, rfl⟩

/-- What the stream under way says is in the replica. -/
def Tracked (app : App) (c : SyncChannel) : Prop :=
  c.keeper.syncPosition = true ∧ ∀ uid, Bookkeeper.hasLocation app uid = true →
    ∀ key position, (collect (c.stream uid)).lookup key = some position →
      ∃ replica, c.keeper.booksReplica uid = some replica ∧
        replica.state.positions.lookup key = some position

variable (app) in
theorem tracked_start (hsync : keeper.syncPosition = true) : Tracked app (start keeper) :=
  ⟨hsync, fun _ _ _ _ h => by cases h⟩

/-- A row is tracked when it has been handled. -/
theorem Tracked.position (h : Tracked app c) (hstep : c.step app market (.position row) = .ok c') :
    Tracked app c' := by
  obtain ⟨hsync, htracked⟩ := h
  obtain ⟨keeper', hhandle, hret⟩ := exists_of_bind hstep
  cases hret
  by_cases hknown : Bookkeeper.hasLocation app row.2.holderUid = true
  · obtain ⟨hsync', book, replica, hbook, hassign, hreplicas⟩ :=
      booksReplica_of_trySyncPosition hsync hknown hhandle
    refine ⟨hsync', fun uid huid key position hlookup => ?_⟩
    simp only [hreplicas, streamAfter] at hlookup ⊢
    by_cases heq : uid = row.2.holderUid
    · subst heq
      rw [Function.update_self] at hlookup
      rw [Function.update_self]
      refine ⟨replica, rfl, ?_⟩
      rw [collect_concat] at hlookup
      rw [Book.lookup_assign hassign]
      by_cases hkey : key = row.1
      · subst hkey
        rw [Finmap.lookup_insert] at hlookup
        rw [dif_pos rfl, hlookup]
      · rw [Finmap.lookup_insert_of_ne _ hkey] at hlookup
        rw [dif_neg hkey]
        obtain ⟨replica₀, hreplica₀, hlookup₀⟩ := htracked _ hknown key position hlookup
        rw [getBook, hreplica₀] at hbook
        cases hbook
        exact hlookup₀
    · rw [Function.update_of_ne heq] at hlookup
      rw [Function.update_of_ne heq]
      exact htracked uid huid key position hlookup
  · have hkeeper : keeper' = c.keeper := by
      simp only [Bookkeeper.handle, Bookkeeper.trySyncPosition, hknown, hsync] at hhandle
      cases hhandle
      rfl
    refine ⟨hkeeper ▸ hsync, fun uid huid key position hlookup => ?_⟩
    have hne : uid ≠ row.2.holderUid := fun heq => hknown (heq ▸ huid)
    simp only [streamAfter, Function.update_of_ne hne] at hlookup
    simp only [hkeeper]
    exact htracked uid huid key position hlookup

/-- The end of the positions compares the book with its replica, which is dropped. -/
theorem exists_of_trySyncPositionEnd (hsync : keeper.syncPosition = true)
    (hknown : Bookkeeper.hasLocation app holderUid = true)
    (h : Bookkeeper.trySyncPositionEnd app order keeper holderUid = .ok keeper') :
    ∃ oldBook newBook book, getBook app keeper.books holderUid = .ok oldBook ∧
      getBook app keeper.booksReplica holderUid = .ok newBook ∧
      Bookkeeper.resync order oldBook newBook = .ok book ∧
      keeper' = { keeper with
        books := Function.update keeper.books holderUid (some book)
        booksReplica := Function.update keeper.booksReplica holderUid none } := by
  rw [Bookkeeper.trySyncPositionEnd, if_neg (by simp [hsync, hknown])] at h
  obtain ⟨newBook, hnew, h⟩ := exists_of_bind h
  obtain ⟨books, hbooks, h⟩ := exists_of_bind h
  cases h
  obtain ⟨oldBook, book, hold, hbook, rfl⟩ := exists_of_onBook hbooks
  exact ⟨oldBook, newBook, book, hold, hnew, hbook, rfl⟩

theorem Tracked.positionEnd (h : Tracked app c)
    (hstep : c.step app market (.positionEnd holderUid order) = .ok c') : Tracked app c' := by
  obtain ⟨hsync, htracked⟩ := h
  obtain ⟨keeper', hhandle, hret⟩ := exists_of_bind hstep
  cases hret
  have hstream : ∀ uid key position,
      (collect (streamAfter c.stream (.positionEnd holderUid order) uid)).lookup key = some position →
        uid ≠ holderUid ∧ (collect (c.stream uid)).lookup key = some position := by
    intro uid key position hlookup
    by_cases heq : uid = holderUid
    · simp [streamAfter, heq, collect] at hlookup
    · exact ⟨heq, by simpa [streamAfter, heq] using hlookup⟩
  by_cases hknown : Bookkeeper.hasLocation app holderUid = true
  · obtain ⟨oldBook, newBook, book, -, -, -, rfl⟩ := exists_of_trySyncPositionEnd hsync hknown hhandle
    refine ⟨hsync, fun uid huid key position hlookup => ?_⟩
    obtain ⟨hne, hlookup⟩ := hstream uid key position hlookup
    simp only [Function.update_of_ne hne]
    exact htracked uid huid key position hlookup
  · have hkeeper : keeper' = c.keeper := by
      simp only [Bookkeeper.handle, Bookkeeper.trySyncPositionEnd, hknown, hsync] at hhandle
      cases hhandle
      rfl
    refine ⟨hkeeper ▸ hsync, fun uid huid key position hlookup => ?_⟩
    simp only [hkeeper]
    exact htracked uid huid key position (hstream uid key position hlookup).2

/-- What other events do keeps track of the streams, the start of one included. -/
theorem Tracked.of_not_ofStream (h : Tracked app c) (hevent : ¬ OfStream event)
    (hstep : c.step app market event = .ok c') : Tracked app c' := by
  obtain ⟨hsync, htracked⟩ := h
  obtain ⟨keeper', hhandle, hret⟩ := exists_of_bind hstep
  cases hret
  obtain ⟨hsync', hreplicas⟩ := (keeps_handle c.keeper hevent).of_ok hhandle
  refine ⟨hsync'.trans hsync, fun uid huid key position hlookup => ?_⟩
  have hlookup' : (collect (c.stream uid)).lookup key = some position := by
    cases event with
    | begins holderUid =>
        by_cases heq : uid = holderUid
        · simp [streamAfter, heq, collect] at hlookup
        · simpa [streamAfter, heq] using hlookup
    | position row => exact absurd trivial hevent
    | positionEnd holderUid order => exact absurd trivial hevent
    | _ => exact hlookup
  obtain ⟨replica, hreplica, hposition⟩ := htracked uid huid key position hlookup'
  obtain ⟨replica', hreplica', hpositions⟩ := hreplicas uid replica hreplica
  exact ⟨replica', hreplica', by rw [hpositions, hposition]⟩

theorem Tracked.step (h : Tracked app c) (hstep : c.step app market event = .ok c') :
    Tracked app c' := by
  by_cases hevent : OfStream event
  · cases event with
    | position row => exact h.position hstep
    | positionEnd holderUid order => exact h.positionEnd hstep
    | _ => cases hevent
  · exact h.of_not_ofStream hevent hstep

theorem Tracked.run {events : List SyncEvent} (h : Tracked app c)
    (hrun : run app market events c = .ok c') : Tracked app c' :=
  (post_foldlM h fun _ _ _ hs => Post.of_forall_ok fun _ => hs.step).of_ok hrun

/-! ### The end of a stream -/

/-- In the replica an instrument that the stream names has the volumes that the stream gives
it. -/
theorem held_replica_of_names {replica : AccountBook} (h : Tracked app c) (hapart : c.Apart holderUid)
    (hknown : Bookkeeper.hasLocation app holderUid = true)
    (hreplica : getBook app c.keeper.booksReplica holderUid = .ok replica) {direction : Direction}
    {instrument : String × String} (hrow : row ∈ c.stream holderUid)
    (hnames : Names direction instrument row) :
    replica.held direction instrument = streamed (c.stream holderUid) direction instrument := by
  obtain ⟨position, hcollect⟩ := exists_lookup_collect hrow
  obtain ⟨replica', hreplica', hlookup⟩ := h.2 holderUid hknown _ _ hcollect
  rw [getBook, hreplica'] at hreplica
  cases hreplica
  have hinstrument := (hapart.stream replica hreplica' row hrow position hlookup).trans hnames.2
  obtain ⟨key, p⟩ := row
  obtain rfl : key = _ := key_of_names hnames
  rw [streamed_eq_of_lookup_collect hcollect hinstrument]
  simp [Book.held, hlookup, hinstrument]

/-- A book that is asked for is there, or new and without positions. -/
theorem lookup_of_getBook {books : Books} {book : AccountBook} (h : getBook app books uid = .ok book)
    (hbook : books uid = none) (key : PositionKey) : book.state.positions.lookup key = none := by
  simp only [getBook, hbook, makeBook] at h
  split at h
  · cases h
  · cases h
    rfl

/-- After the end of the positions of a holder, the book has exactly the volumes of the
stream that ended if and only if nothing was left in the replica that the stream does not
name. -/
theorem exact_iff_fresh {events : List SyncEvent} (hsync : keeper.syncPosition = true)
    (hknown : Bookkeeper.hasLocation app holderUid = true)
    (hrun : run app market events (start keeper) = .ok c) (hapart : c.Apart holderUid)
    (hstep : c.step app market (.positionEnd holderUid order) = .ok c') :
    c'.Exact holderUid ↔ c.Fresh holderUid := by
  have htracked := (tracked_start app hsync).run hrun
  obtain ⟨keeper', hhandle, hret⟩ := exists_of_bind hstep
  cases hret
  obtain ⟨oldBook, newBook, book, hold, hnew, hresync, rfl⟩ :=
    exists_of_trySyncPositionEnd htracked.1 hknown hhandle
  have hsame : oldBook.SameInstruments newBook := by
    intro key position position' hposition hposition'
    cases hbooks : c.keeper.books holderUid with
    | none => simp [lookup_of_getBook hold hbooks] at hposition
    | some oldBook' =>
        cases hreplicas : c.keeper.booksReplica holderUid with
        | none => simp [lookup_of_getBook hnew hreplicas] at hposition'
        | some newBook' =>
            simp only [getBook, hbooks, Except.ok.injEq] at hold
            simp only [getBook, hreplicas, Except.ok.injEq] at hnew
            subst hold hnew
            exact hapart.book _ _ hbooks hreplicas key position position' hposition hposition'
  have hheld : ∀ direction instrument,
      book.held direction instrument = newBook.held direction instrument :=
    fun direction instrument => Book.held_resync hsame hresync
  have hlatest : c.latestAfter (.positionEnd holderUid order) holderUid = c.stream holderUid :=
    Function.update_self ..
  constructor
  · rintro ⟨book', hbook', hexact⟩ replica hreplica direction instrument hnames
    simp only [Function.update_self, Option.some.injEq] at hbook'
    subst hbook'
    simp only [getBook, hreplica, Except.ok.injEq] at hnew
    subst hnew
    calc replica.held direction instrument
      _ = book.held direction instrument := (hheld direction instrument).symm
      _ = streamed (c.latestAfter (.positionEnd holderUid order) holderUid) direction instrument :=
          hexact direction instrument
      _ = (0, 0) := by rw [hlatest, streamed_of_not_names hnames]
  · intro hfresh
    refine ⟨book, Function.update_self .., fun direction instrument => ?_⟩
    simp only [hheld, hlatest]
    by_cases hnames : ∃ row ∈ c.stream holderUid, Names direction instrument row
    · obtain ⟨row, hrow, hnames⟩ := hnames
      exact held_replica_of_names htracked hapart hknown hnew hrow hnames
    · push Not at hnames
      rw [streamed_of_not_names hnames]
      cases hreplicas : c.keeper.booksReplica holderUid with
      | none => simp [Book.held, lookup_of_getBook hnew hreplicas]
      | some replica =>
          simp only [getBook, hreplicas, Except.ok.injEq] at hnew
          subst hnew
          exact hfresh replica hreplicas direction instrument hnames

/-! ### An account -/

/-- The place of a key in the order of the keys. -/
def code (key : PositionKey) : ℕ := 2 * key.hash.toNat + if key.direction = .Long then 0 else 1

theorem code_injective : Function.Injective code := by
  rintro ⟨direction, hash⟩ ⟨direction', hash'⟩ h
  have hhash : hash.toNat = hash'.toNat := by
    cases direction <;> cases direction' <;> simp [code] at h <;> omega
  obtain rfl := UInt32.toNat_inj.mp hhash
  cases direction <;> cases direction' <;> simp [code] at h ⊢

instance : LinearOrder PositionKey := LinearOrder.lift' code code_injective

/-- A long position of the account 10 in an instrument of SHFE. -/
def exampleRow (instrumentId : String) (volume : ℤ) : Row :=
  ⟨positionKey .Long "SHFE" instrumentId,
    { updateTime := 0
      tradingDay := "20260929"
      instrumentId := instrumentId
      instrumentType := .Future
      exchangeId := "SHFE"
      holderUid := 10
      ledgerCategory := .Account
      volume := volume
      yesterdayVolume := 0
      frozenTotal := 0
      frozenYesterday := 0
      lastPrice := 0
      avgOpenPrice := 0
      positionCostPrice := 0
      closePrice := 0
      preClosePrice := 0
      settlementPrice := 0
      preSettlementPrice := 0
      margin := 0
      positionPnl := 0
      closePnl := 0
      realizedPnl := 0
      unrealizedPnl := 0
      hashed := rfl }⟩

def exampleKeeper : Bookkeeper := ⟨fun _ => none, fun _ => none, true, true, true, false⟩

/-- The positions are started anew after one row; the second stream does not name it. -/
def abandonedEvents : List SyncEvent :=
  [.position (exampleRow "rb2410" 5), .begins 10, .position (exampleRow "ag2412" 3)]

/-- The book holds what only the stream that was given up has named. -/
theorem not_exact_of_abandoned : ∃ c c', run exampleApp noInstruments abandonedEvents
      (start exampleKeeper) = .ok c ∧
    c.step exampleApp noInstruments (.positionEnd 10 .sorted) = .ok c' ∧ ¬ c'.Exact 10 := by
  have hany : (run exampleApp noInstruments abandonedEvents (start exampleKeeper) >>= fun c =>
      c.step exampleApp noInstruments (.positionEnd 10 .sorted)).toOption.any (fun c' =>
        (c'.keeper.books 10).all (fun book => book.held .Long ("SHFE", "rb2410") = (5, 0)) &&
          streamed (c'.latest 10) .Long ("SHFE", "rb2410") = (0, 0)) = true := by
    decide +kernel
  obtain ⟨c', hc', htest⟩ := exists_of_any hany
  obtain ⟨c, hrun, hstep⟩ := exists_of_bind hc'
  refine ⟨c, c', hrun, hstep, ?_⟩
  rintro ⟨book, hbook, hexact⟩
  have h := hexact .Long ("SHFE", "rb2410")
  simp only [hbook, Option.all_some, Bool.and_eq_true, decide_eq_true_eq] at htest
  rw [htest.1, htest.2] at h
  cases h

/-- The positions are started anew, and the second stream names the same instrument. -/
def renewedEvents : List SyncEvent :=
  [.position (exampleRow "rb2410" 5), .begins 10, .position (exampleRow "rb2410" 2)]

theorem exact_iff_fresh_renewed : ∃ c c', run exampleApp noInstruments renewedEvents
      (start exampleKeeper) = .ok c ∧
    c.step exampleApp noInstruments (.positionEnd 10 .sorted) = .ok c' ∧ c'.Exact 10 := by
  let row := exampleRow "rb2410" 2
  have hany : (run exampleApp noInstruments renewedEvents (start exampleKeeper)).toOption.any
      (fun c => (c.step exampleApp noInstruments (.positionEnd 10 .sorted)).isOk &&
        (c.keeper.booksReplica 10).all (fun replica =>
          replica.state.positions = collect [row]) &&
        c.stream 10 = [row] && (c.keeper.books 10).isNone) = true := by
    decide +kernel
  obtain ⟨c, hrun, htest⟩ := exists_of_any hany
  simp only [Bool.and_eq_true, decide_eq_true_eq, Option.isNone_iff_eq_none] at htest
  obtain ⟨⟨⟨hok, hreplicas⟩, hstream⟩, hbooks⟩ := htest
  obtain ⟨c', hstep⟩ := exists_of_isOk hok
  have hpositions : ∀ replica, c.keeper.booksReplica 10 = some replica →
      replica.state.positions = collect [row] := by
    intro replica hreplica
    simpa [hreplica] using hreplicas
  have hapart : c.Apart 10 := by
    refine ⟨fun replica hreplica r hr position hlookup => ?_, fun _ _ hbook => ?_⟩
    · rw [hstream, List.mem_singleton] at hr
      subst hr
      rw [hpositions replica hreplica] at hlookup
      exact congrArg (fun r : Row => r.2.instrument)
        (List.mem_singleton.mp (mem_of_lookup_collect hlookup))
    · rw [hbooks] at hbook
      cases hbook
  refine ⟨c, c', hrun, hstep, (exact_iff_fresh rfl rfl hrun hapart hstep).mpr ?_⟩
  intro replica hreplica direction instrument hnames
  exact held_of_collect (hpositions replica hreplica) (hstream ▸ hnames)

end SyncChannel

end Kungfu.Wingchun
