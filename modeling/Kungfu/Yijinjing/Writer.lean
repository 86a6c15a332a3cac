import Kungfu.Yijinjing.Journal

/-!
# The writer

`open_frame`, `close_frame`, `copy_frame` and `close_page` as they store into the
current page.  Every store is checked against the mapping, every `assert` is kept
and fails only in a checked build, and the clock readings are arguments.
-/

namespace Kungfu.Yijinjing

open Memory

/-- A `writer`; `locked` is the state of `writer_mtx_`. -/
structure Writer where
  frameIdBase : UInt64
  journal : Journal
  sizeToWrite : ℕ
  writerStartTime : UInt32
  locked : Bool

namespace Writer

/-- The directory together with the writer of its journal. -/
abbrev State := Dir × Writer

/-- Run a journal operation on the writer's own journal. -/
def onJournal (f : Journal.State → Journal.Result) (s : State) : Except Fault State :=
  match f (s.1, s.2.journal) with
  | .ok (d, j) => .ok (d, { s.2 with journal := j })
  | .error (fault, _) => .error fault

/-- The writer's position. -/
def cursor (s : State) : Except Fault Cursor :=
  match s.2.journal.cursor with
  | some c => .ok c
  | none => .error .nullFrame

/-- The constructor.  `hash` is `hash_32` on the eight bytes of a clock reading;
the clock is read once for it and once more for the seek. -/
def make (hash : Int64 → UInt32) (location dest : UInt32) (lazy : Bool)
    (startTime now : Int64) (d : Dir) : Except Fault State :=
  onJournal (Journal.seekToTime · now)
    (d, { frameIdBase := (location ^^^ dest).toUInt64 <<< 32
          journal := Journal.make location dest true lazy
          sizeToWrite := 0
          writerStartTime := hash startTime
          locked := false })

/-! ## Header stores -/

/-- The fields `open_frame` and `close_page` fill in before the length. -/
def putHeader (size : ℕ) (m : Mem) (a : ℕ) (triggerTime : Int64) (msgType : Int32)
    (source dest : UInt32) : Except Fault Mem := do
  let m ← putAt size m (a + 4) (UInt32.ofNat frameHeaderSize)
  let m ← putAt size m (a + 16) triggerTime
  let m ← putAt size m (a + 24) msgType
  let m ← putAt size m (a + 28) source
  putAt size m (a + 32) dest

/-- `set_gen_time` and `set_data_length`, which completes the frame. -/
def putLength (size : ℕ) (m : Mem) (a : ℕ) (genTime : Int64) (dataLength : ℕ) :
    Except Fault Mem := do
  let m ← putAt size m (a + 8) genTime
  putAt size m a (FrameHeader.headerLength m a + UInt32.ofNat dataLength)

/-- `page::set_last_frame_position`. -/
def putLastFramePosition (size : ℕ) (m : Mem) (a : ℕ) : Except Fault Mem :=
  putAt size m 16 (UInt64.ofNat a)

/-! ## Operations -/

/-- `writer::close_page`: the next page is loaded first, then the page that was
current gets its end mark. -/
def closePage (now triggerTime : Int64) (s : State) : Except Fault State := do
  let c ← cursor s
  let (d, w) ← onJournal Journal.loadNextPage s
  let size := d.mappingSize
  let m := d.mem c.page
  let a := Page.lastFrameEnd m
  let m ← putHeader size m a triggerTime pageEndTag w.journal.location w.journal.dest
  let m ← putLength size m a now 0
  let m ← putLastFramePosition size m a
  .ok (d.setMem c.page m, w)

/-- The switch test of `open_frame` and `copy_frame`, for a frame of `n` bytes. -/
def switchPage (now triggerTime : Int64) (n : ℕ) (s : State) : Except Fault State := do
  let c ← cursor s
  if Page.addressBorder (s.1.mem c.page) ≤ c.frame + n then closePage now triggerTime s
  else .ok s

/-- `writer::open_frame`. -/
def openFrame (b : Build) (now triggerTime : Int64) (msgType : Int32) (dataLength : UInt32)
    (s : State) : Except Fault State := do
  let c ← cursor s
  assertThat b (frameHeaderSize + dataLength.toNat + frameHeaderSize ≤
    (Page.pageSize (s.1.mem c.page)).toNat)
  if s.2.locked then .error (.journalError .cannotLock)
  else
    let (d, w) ← switchPage now triggerTime (frameHeaderSize + dataLength.toNat) s
    let c ← cursor (d, w)
    let m ← putHeader d.mappingSize (d.mem c.page) c.frame triggerTime msgType
      w.journal.location w.journal.dest
    .ok (d.setMem c.page m, { w with sizeToWrite := dataLength.toNat, locked := true })

/-- What the caller stores into the open frame: its data, and for `write_as` another
source and destination. -/
def fillFrame (data : List UInt8) (as : Option (UInt32 × UInt32)) (s : State) :
    Except Fault State := do
  let c ← cursor s
  let size := s.1.mappingSize
  let m := s.1.mem c.page
  let m ← storeAt size m (c.frame + (FrameHeader.headerLength m c.frame).toNat) data
  match as with
  | none => .ok (s.1.setMem c.page m, s.2)
  | some (source, dest) =>
      let m ← putAt size m (c.frame + 28) source
      let m ← putAt size m (c.frame + 32) dest
      .ok (s.1.setMem c.page m, s.2)

/-- `writer::close_frame`. -/
def closeFrame (b : Build) (dataLength : ℕ) (genTime : Int64) (s : State) :
    Except Fault State := do
  assertThat b (dataLength ≤ s.2.sizeToWrite)
  let c ← cursor s
  let size := s.1.mappingSize
  let m := s.1.mem c.page
  let nextFrame := c.frame + (FrameHeader.headerLength m c.frame).toNat + dataLength
  assertThat b (nextFrame < Page.addressBorder m)
  let m ← storeAt size m nextFrame (List.replicate frameHeaderSize 0)
  let m ← putLength size m c.frame genTime dataLength
  let m ← putLastFramePosition size m c.frame
  onJournal Journal.next (s.1.setMem c.page m, { s.2 with sizeToWrite := 0, locked := false })

/-- `writer::copy_frame`, from the frame at `a` in the memory `src`.  The clock is read
for the trigger time of an end mark and again, inside `close_page`, for its time. -/
def copyFrame (b : Build) (triggerTime now : Int64) (src : Mem) (a : ℕ) (s : State) :
    Except Fault State := do
  let c ← cursor s
  let n := (FrameHeader.frameLength src a).toNat
  assertThat b (n + frameHeaderSize ≤ (Page.pageSize (s.1.mem c.page)).toNat)
  let (d, w) ← switchPage now triggerTime n s
  let c ← cursor (d, w)
  let size := d.mappingSize
  let m ← storeAt size (d.mem c.page) c.frame (src.load a n)
  let nextFrame := c.frame + (FrameHeader.headerLength m c.frame).toNat +
    (FrameHeader.dataLength m c.frame).toNat
  let m ← storeAt size m nextFrame (List.replicate frameHeaderSize 0)
  let m ← putLastFramePosition size m c.frame
  onJournal Journal.next (d.setMem c.page m, w)

/-! ## Whole writes -/

/-- One write of a caller: the arguments of `open_frame` and `close_frame`, the bytes
stored in between and, for `write_as`, the addresses. -/
structure Record where
  triggerTime : Int64
  msgType : Int32
  length : UInt32
  data : List UInt8
  as : Option (UInt32 × UInt32)
  genTime : Int64

/-- `open_frame`, the caller's stores, `close_frame`; `now` is the clock at the open. -/
def write (b : Build) (now : Int64) (r : Record) (s : State) : Except Fault State := do
  let s ← openFrame b now r.triggerTime r.msgType r.length s
  let s ← fillFrame r.data r.as s
  closeFrame b r.data.length r.genTime s

/-- The frame a write leaves in the journal of `(location, dest)`. -/
def Record.toFrame (location dest : UInt32) (r : Record) : Frame where
  genTime := r.genTime
  triggerTime := r.triggerTime
  msgType := r.msgType
  source := (r.as.getD (location, dest)).1
  dest := (r.as.getD (location, dest)).2
  data := r.data

/-- `writer::mark`: a frame without data. -/
def Record.mark (triggerTime : Int64) (msgType : Int32) (genTime : Int64) : Record where
  triggerTime := triggerTime
  msgType := msgType
  length := 0
  data := []
  as := none
  genTime := genTime

end Writer

end Kungfu.Yijinjing
