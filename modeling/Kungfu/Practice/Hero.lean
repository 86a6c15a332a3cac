import Kungfu.Yijinjing.Reader

/-!
# The event loop

`hero::drain` dispatches the current frame while its reader has data.  Its handlers run in
the middle of an iteration and may take journals away from the reader; the iteration ends
with `reader_->next()` whatever they did.

Handlers are arbitrary code, so a run is given what they do: for every iteration the calls
they make on the reader, and what other processes write meanwhile.
-/

namespace Kungfu.Practice

open Yijinjing

/-- A `hero`; `isLive` is `mode == LIVE` of its home. -/
structure Hero where
  reader : Reader.State
  now : Int64
  endTime : Int64
  live : Bool
  isLive : Bool

/-- What a handler calls, with the clock of the call, or what others write meanwhile. -/
inductive Action
  | disjoin (now : Int64) (location : UInt32)
  | disjoinChannel (now : Int64) (k : Key)
  | others (dirs : Key → Dir)
  | signalStop

/-- One iteration of the loop in `hero::drain`: the clock at `data_available`, what happens
in `on_next` and `on_frame`, and the clock at `next`. -/
structure Round where
  check : Int64
  handler : List Action
  next : Int64

/-- One call of `hero::drain`: the clock if a notice came in, what happens before the loop,
for the notice and in the `on_active` that precedes the call, the iterations, and the clock
of the test that follows the loop. -/
structure Pass where
  notice : Option Int64
  before : List Action
  rounds : List Round
  check : Int64

/-- Why a call of `hero::drain` is over. -/
inductive Stop
  /-- No data is available. -/
  | idle
  /-- `drain` returned false: the end time or the end of the journal is reached. -/
  | ended
  /-- `live_` was cleared. -/
  | dead
  /-- The log line at the end of the journal follows a null current frame. -/
  | nullFrame
  /-- It is not over: the given iterations are used up. -/
  | running
  deriving DecidableEq, Repr

/-- The frames that were dispatched, why the call is over, and the state it leaves. -/
structure Drained where
  frames : List (Key × Frame)
  stop : Stop
  hero : Hero

/-- A fault of the reader, with the state it leaves. -/
abbrev Result (α : Type) := Except (Fault × Reader.State) α

namespace Action

/-- The reader without the journals a call disjoins, before it selects again. -/
def removed (s : Reader.State) : Action → Reader.State
  | disjoin _ location => (s.1, { s.2 with
      current := none
      journals := s.2.journals.filter fun e => e.1.location ≠ location })
  | disjoinChannel _ k => (s.1, { s.2 with
      current := none
      journals := s.2.journals.eraseP fun e => e.1 = k })
  | others _ => s
  | signalStop => s

/-- Perform an action. -/
def run (h : Hero) : Action → Result Hero
  | disjoin now location => do
      let s ← Reader.disjoin now location h.reader
      .ok { h with reader := s }
  | disjoinChannel now k => do
      let s ← Reader.disjoinChannel now k h.reader
      .ok { h with reader := s }
  | others dirs => .ok { h with reader := (dirs, h.reader.2) }
  | signalStop => .ok { h with live := false }

/-- Perform actions one after another. -/
def runAll (h : Hero) (as : List Action) : Result Hero := as.foldlM run h

end Action

namespace Hero

/-- `now_` at a frame. -/
def advanceTo (h : Hero) (frameTime : Int64) : Hero :=
  { h with now := if h.now < frameTime then frameTime else h.now }

/-- `now_` at a notice, which only a `LIVE` process waits for. -/
def notified (h : Hero) : Option Int64 → Hero
  | none => h
  | some now => if h.isLive then { h with now := now } else h

/-- The body of the loop for a frame that is not later than the end time. -/
def dispatch (r : Round) (f : Frame) (h : Hero) : Result Hero := do
  let h ← Action.runAll (h.advanceTo f.genTime) r.handler
  let s ← Reader.next r.next h.reader
  .ok { h with reader := s }

/-- The loop of `hero::drain`. -/
def drainLoop : List Round → Hero → Result Drained
  | [], h => .ok ⟨[], .running, h⟩
  | r :: rounds, h =>
      if h.live = false then .ok ⟨[], .dead, h⟩
      else
        match Reader.dataAvailable r.check h.reader with
        | .error e => .error e
        | .ok (false, s) => .ok ⟨[], .idle, { h with reader := s }⟩
        | .ok (true, s) =>
            match Reader.currentFrame s with
            | none => .error (.nullFrame, s)
            | some (k, f) =>
                if f.genTime ≤ h.endTime then do
                  let h ← dispatch r f { h with reader := s }
                  let rest ← drainLoop rounds h
                  .ok { rest with frames := (k, f) :: rest.frames }
                else .ok ⟨[], .ended, { h with reader := s }⟩

/-- The end of `hero::drain` in a mode other than `LIVE`: without data it logs the time of
the current frame and returns false. -/
def finish (check : Int64) (r : Drained) : Result Drained :=
  match r.stop with
  | .ended | .nullFrame | .running => .ok r
  | .idle | .dead =>
      if r.hero.isLive then .ok r
      else
        match Reader.dataAvailable check r.hero.reader with
        | .error e => .error e
        | .ok (true, s) => .ok { r with hero := { r.hero with reader := s } }
        | .ok (false, s) =>
            .ok { r with
              stop := if s.2.current = none then .nullFrame else .ended
              hero := { r.hero with reader := s } }

/-- `hero::drain`. -/
def drain (p : Pass) (h : Hero) : Result Drained := do
  let h ← Action.runAll (h.notified p.notice) p.before
  let r ← drainLoop p.rounds h
  finish p.check r

/-- The loop of `hero::produce`, which goes on while `live_` is set. -/
def produce : List Pass → Hero → Result Drained
  | [], h => .ok ⟨[], .running, h⟩
  | p :: ps, h => do
      let r ← drain p h
      if r.stop = .idle ∧ ps ≠ [] then do
        let rest ← produce ps r.hero
        .ok { rest with frames := r.frames ++ rest.frames }
      else .ok r

end Hero

end Kungfu.Practice
