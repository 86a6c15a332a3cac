import Kungfu.Yijinjing.Page

/-!
# The journal cursor

A `Journal` object walks the pages of one `(location, dest)`: `next` moves one frame
on and switches page at an end mark, `seekToTime` looks for the first frame newer
than a time.  An operation that throws carries the state it leaves behind.
-/

namespace Kungfu.Yijinjing

open Memory

/-- `page_`, `frame_` (an offset in the page) and `page_frame_nb_`. -/
structure Cursor where
  page : ℕ
  frame : ℕ
  pageFrameNb : ℕ
  deriving DecidableEq, Repr

/-- A `journal` object; `cursor` is `none` until a page has been loaded. -/
structure Journal where
  location : UInt32
  dest : UInt32
  isWriting : Bool
  lazy : Bool
  cursor : Option Cursor
  deriving DecidableEq, Repr

namespace Journal

/-- A constructed journal: `page_` and the frame address are null. -/
def make (location dest : UInt32) (isWriting lazy : Bool) : Journal :=
  ⟨location, dest, isWriting, lazy, none⟩

/-- The directory together with the journal that walks it. -/
abbrev State := Dir × Journal

/-- The result of an operation that may throw and then leaves a state. -/
abbrev Result := Except (Fault × State) State

/-- Move to the first slot of a page that is mapped. -/
def enterPage (j : Journal) (d : Dir) (id : ℕ) : Journal :=
  { j with cursor := some ⟨id, Page.firstFrameAddress (d.mem id), 0⟩ }

/-- `journal::load_page`. -/
def loadPage (s : State) (id : ℕ) : Result :=
  if s.2.cursor.map Cursor.page = some id then .ok (s.1, s.2.enterPage s.1 id)
  else
    match Page.load s.1 id s.2.isWriting s.2.lazy with
    | .ok d => .ok (d, s.2.enterPage d id)
    | .error (fault, d) => .error (fault, d, s.2)

/-- `journal::load_next_page`. -/
def loadNextPage (s : State) : Result :=
  match s.2.cursor with
  | none => .error (.nullFrame, s)
  | some c => loadPage s (c.page + 1)

/-- `journal::next`. -/
def next (s : State) : Result :=
  match s.2.cursor with
  | none => .error (.nullFrame, s)
  | some c =>
      let m := s.1.mem c.page
      if FrameHeader.msgType m c.frame = pageEndTag then loadNextPage s
      else
        let frame := c.frame + (FrameHeader.frameLength m c.frame).toNat
        .ok (s.1, { s.2 with cursor := some ⟨c.page, frame, c.pageFrameNb + 1⟩ })

/-- The page loop of `seek_to_time`: leave every full page that ended by then. -/
def skipPages (nanotime : Int64) : ℕ → State → Result
  | 0, s => .error (.outOfFuel, s)
  | fuel + 1, s =>
      match s.2.cursor with
      | none => .error (.nullFrame, s)
      | some c =>
          let m := s.1.mem c.page
          if Page.isFull m ∧ Page.endTime m ≤ nanotime then
            loadNextPage s >>= skipPages nanotime fuel
          else .ok s

/-- The frame loop of `seek_to_time`. -/
def skipFrames (nanotime : Int64) : ℕ → State → Result
  | 0, s => .error (.outOfFuel, s)
  | fuel + 1, s =>
      match s.2.cursor with
      | none => .error (.nullFrame, s)
      | some c =>
          let m := s.1.mem c.page
          if FrameHeader.hasData m c.frame ∧ FrameHeader.genTime m c.frame ≤ nanotime then
            next s >>= skipFrames nanotime fuel
          else .ok s

/-- More pages than the page loop can leave. -/
def pageFuel (d : Dir) : ℕ := d.ids.length + 2

/-- More frames than the pages of a directory can hold. -/
def frameFuel (d : Dir) : ℕ := (d.ids.length + 1) * (d.mappingSize + 1) + 1

/-- `journal::seek_to_time`. -/
def seekToTime (s : State) (nanotime : Int64) : Result := do
  let id ← (Page.findPageId s.1 nanotime).mapError fun fault => (fault, s)
  let s ← loadPage s id
  let s ← skipPages nanotime (pageFuel s.1) s
  skipFrames nanotime (frameFuel s.1) s

end Journal

end Kungfu.Yijinjing
