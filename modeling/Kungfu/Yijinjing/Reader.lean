import Kungfu.Yijinjing.Journal

/-!
# The reader

A reader walks several journals, each in its own directory, and caches which of them is
current.  `sort` selects among the heads, in the iteration order of the hash map; that
order is not determined by the code, so an insertion takes it as an argument.

An operation that throws carries the state it leaves behind.
-/

namespace Kungfu.Yijinjing

open Memory

/-- The map key of a joined journal: source uid and dest id. -/
structure Key where
  location : UInt32
  dest : UInt32
  deriving DecidableEq, Repr

/-- A `reader`; `current` points to a joined journal and `journals` is the hash map in
iteration order. -/
structure Reader where
  lazy : Bool
  liveMode : Bool
  current : Option Key
  journals : List (Key × Journal)

/-- Where an insertion puts the entries of the hash map. -/
structure HashOrder where
  arrange : List (Key × Journal) → List (Key × Journal)
  perm : ∀ entries, (arrange entries).Perm entries

/-- The iteration order that puts a new entry in front. -/
def HashOrder.front : HashOrder := ⟨id, fun _ => List.Perm.refl _⟩

namespace Reader

/-- The directories of all journals together with the reader. -/
abbrev State := (Key → Dir) × Reader

/-- The result of an operation that may throw and then leaves a state. -/
abbrev Result := Except (Fault × State) State

/-- A constructed reader. -/
def make (lazy liveMode : Bool) : Reader := ⟨lazy, liveMode, none, []⟩

/-- The joined journals. -/
def keys (r : Reader) : List Key := r.journals.map Prod.fst

/-- Replace a journal object and its directory. -/
def set (s : State) (k : Key) (d : Dir) (j : Journal) : State :=
  (Function.update s.1 k d,
    { s.2 with journals := s.2.journals.map fun e => if e.1 = k then (k, j) else e })

/-- Run a journal operation on a joined journal. -/
def onJournal (f : Journal.State → Journal.Result) (k : Key) (s : State) : Result :=
  match s.2.journals.lookup k with
  | none => .error (.nullFrame, s)
  | some j =>
      match f (s.1 k, j) with
      | .ok (d, j) => .ok (set s k d j)
      | .error (fault, d, j) => .error (fault, set s k d j)

/-- The loop of `reader::sort`.  A head is selected when it has data and is not later than
the bound, which it then replaces. -/
def select (dirs : Key → Dir) : List (Key × Journal) → Int64 → Option Key →
    Except Fault (Option Key)
  | [], _, current => .ok current
  | (k, j) :: rest, minTime, current =>
      match j.cursor with
      | none => .error .nullFrame
      | some c =>
          let m := (dirs k).mem c.page
          if FrameHeader.hasData m c.frame ∧ FrameHeader.genTime m c.frame ≤ minTime then
            select dirs rest (FrameHeader.genTime m c.frame) (some k)
          else select dirs rest minTime current

/-- The bound that `reader::sort` starts from. -/
def minTime (r : Reader) (now : Int64) : Int64 := if r.liveMode then Int64.maxValue else now

/-- `reader::sort`; `now` is the clock. -/
def sort (now : Int64) (s : State) : Result :=
  match select s.1 s.2.journals (s.2.minTime now) s.2.current with
  | .ok current => .ok (s.1, { s.2 with current := current })
  | .error fault => .error (fault, s)

/-- `try_emplace` of a new journal object. -/
def emplace (order : HashOrder) (k : Key) (s : State) : State :=
  (s.1, { s.2 with
    journals := order.arrange ((k, Journal.make k.location k.dest false s.2.lazy) :: s.2.journals) })

/-- The first half of `reader::join`: a journal that is not joined yet is inserted, and
then positioned. -/
def insert (order : HashOrder) (k : Key) (fromTime : Int64) (s : State) : Result :=
  if (s.2.journals.lookup k).isSome then .ok s
  else onJournal (Journal.seekToTime · fromTime) k (emplace order k s)

/-- `reader::join`. -/
def join (order : HashOrder) (now : Int64) (k : Key) (fromTime : Int64) (s : State) : Result := do
  let s ← insert order k fromTime s
  if s.2.current = none then sort now s else .ok s

/-- `reader::disjoin`, of every journal of a location. -/
def disjoin (now : Int64) (location : UInt32) (s : State) : Result :=
  sort now (s.1, { s.2 with
    current := none
    journals := s.2.journals.filter fun e => e.1.location ≠ location })

/-- `reader::disjoin_channel`. -/
def disjoinChannel (now : Int64) (k : Key) (s : State) : Result :=
  sort now (s.1, { s.2 with
    current := none
    journals := s.2.journals.eraseP fun e => e.1 = k })

/-- The current journal and the position of its head. -/
def currentHead (s : State) : Option (Key × Cursor) := do
  let k ← s.2.current
  let j ← s.2.journals.lookup k
  let c ← j.cursor
  return (k, c)

/-- `reader::current_frame`, read out. -/
def currentFrame (s : State) : Option (Key × Frame) :=
  (currentHead s).map fun h => (h.1, Frame.read ((s.1 h.1).mem h.2.page) h.2.frame)

/-- `reader::data_available`. -/
def dataAvailable (now : Int64) (s : State) : Except (Fault × State) (Bool × State) := do
  let s ← sort now s
  match s.2.current with
  | none => .ok (false, s)
  | some _ =>
      match currentHead s with
      | none => .error (.nullFrame, s)
      | some (k, c) => .ok (FrameHeader.hasData ((s.1 k).mem c.page) c.frame, s)

/-- `current_->next()`, if a journal is selected. -/
def nextCurrent (s : State) : Result :=
  match s.2.current with
  | none => .ok s
  | some k => onJournal Journal.next k s

/-- `reader::next`. -/
def next (now : Int64) (s : State) : Result := do
  let s ← nextCurrent s
  sort now s

/-- The reading loop: `while data_available(): take current_frame(); next()`; every call
reads the clock anew. -/
def readAll (clock : ℕ → Int64) : ℕ → State → Except (Fault × State) (List (Key × Frame) × State)
  | 0, s => .error (.outOfFuel, s)
  | fuel + 1, s => do
      let (available, s) ← dataAvailable (clock (2 * fuel + 1)) s
      if available then
        let frame := currentFrame s
        let s ← next (clock (2 * fuel)) s
        let (frames, s) ← readAll clock fuel s
        .ok (frame.toList ++ frames, s)
      else .ok ([], s)

end Reader

end Kungfu.Yijinjing
