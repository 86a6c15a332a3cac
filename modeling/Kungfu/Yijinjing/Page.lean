import Kungfu.Yijinjing.Frame
import Mathlib.Data.List.Sort
import Mathlib.Logic.Function.Basic

/-!
# Pages

The pages of one `(location, dest)` journal are files mapped by every process that
opens them, so a page object is only its page id: its bytes live in `Dir`, the
directory of page files.  Addresses are offsets from the start of the mapping.

`Page.load` follows `page::load` with its four error exits, and keeps what a failed
load has already done to the directory.  Page ids are natural numbers; the code's
32-bit id differs only past `2 ^ 32` pages.
-/

namespace Kungfu.Yijinjing

open Memory

/-- `__JOURNAL_VERSION__`. -/
def journalVersion : UInt32 := 4

/-! ## Header fields and derived addresses -/

namespace Page

def version (m : Mem) : UInt32 := m.get UInt32 0
def pageHeaderLength (m : Mem) : UInt32 := m.get UInt32 4
def pageSize (m : Mem) : UInt32 := m.get UInt32 8
def frameHeaderLength (m : Mem) : UInt32 := m.get UInt32 12
def lastFramePosition (m : Mem) : UInt64 := m.get UInt64 16

/-- `page::address_border`: no frame starts at or past it. -/
def addressBorder (m : Mem) : ℕ := (pageSize m).toNat - frameHeaderSize

def firstFrameAddress (m : Mem) : ℕ := (pageHeaderLength m).toNat

def lastFrameAddress (m : Mem) : ℕ := (lastFramePosition m).toNat

/-- `page::begin_time`: the first slot's `gen_time`, zero while it is empty. -/
def beginTime (m : Mem) : Int64 := FrameHeader.genTime m (firstFrameAddress m)

/-- `page::end_time`. -/
def endTime (m : Mem) : Int64 := FrameHeader.genTime m (lastFrameAddress m)

/-- The end of the last frame; `close_page` puts the page's end mark there. -/
def lastFrameEnd (m : Mem) : ℕ :=
  lastFrameAddress m + (FrameHeader.frameLength m (lastFrameAddress m)).toNat

/-- `page::is_full`. -/
def isFull (m : Mem) : Bool := decide (addressBorder m < lastFrameEnd m)

/-- The header `page::load` writes into a page nobody has used. -/
def initHeader (pageSize : UInt32) (m : Mem) : Mem :=
  ((((m.put 0 journalVersion).put 4 (UInt32.ofNat pageHeaderSize)).put 8 pageSize).put 12
    (UInt32.ofNat frameHeaderSize)).put 16 (UInt64.ofNat pageHeaderSize)

end Page

/-! ## The directory of page files -/

/-- A page file: its length on disk and its bytes. -/
structure PageFile where
  size : ℕ
  bytes : Mem

/-- A file that `open(O_CREAT)` has just created. -/
def PageFile.fresh : PageFile := ⟨0, fun _ => 0⟩

/-- The page files of one `(location, dest)`: `pageSize` is what `find_page_size`
returns for it and `ids` what `locator::list_page_id` returns. -/
structure Dir where
  pageSize : UInt32
  ids : List ℕ
  file : ℕ → PageFile

namespace Dir

/-- A directory without page files. -/
def empty (pageSize : UInt32) : Dir := ⟨pageSize, [], fun _ => .fresh⟩

/-- Size of every mapping made from this directory. -/
def mappingSize (d : Dir) : ℕ := d.pageSize.toNat

/-- The bytes of a page. -/
def mem (d : Dir) (id : ℕ) : Mem := (d.file id).bytes

/-- Replace the bytes of a page. -/
def setMem (d : Dir) (id : ℕ) (m : Mem) : Dir :=
  { d with file := Function.update d.file id { d.file id with bytes := m } }

@[simp] theorem mem_setMem_same (d : Dir) (id : ℕ) (m : Mem) : (d.setMem id m).mem id = m := by
  simp [mem, setMem]

theorem mem_setMem_of_ne (d : Dir) {id i : ℕ} (m : Mem) (h : i ≠ id) :
    (d.setMem id m).mem i = d.mem i := by simp [mem, setMem, h]

@[simp] theorem ids_setMem (d : Dir) (id : ℕ) (m : Mem) : (d.setMem id m).ids = d.ids := rfl

@[simp] theorem pageSize_setMem (d : Dir) (id : ℕ) (m : Mem) :
    (d.setMem id m).pageSize = d.pageSize := rfl

@[simp] theorem mappingSize_setMem (d : Dir) (id : ℕ) (m : Mem) :
    (d.setMem id m).mappingSize = d.mappingSize := rfl

@[simp] theorem size_setMem (d : Dir) (id i : ℕ) (m : Mem) :
    ((d.setMem id m).file i).size = (d.file i).size := by
  by_cases h : i = id
  · subst h; simp [setMem]
  · simp [setMem, h]

/-- The file a writable load opens: created empty if it is not there. -/
def openFile (d : Dir) (id : ℕ) : PageFile := if id ∈ d.ids then d.file id else .fresh

/-- `os::load_mmap_buffer` on a writable mapping: the file is created if missing and
stretched to the page size by writing one zero byte at its last position. -/
def stretch (d : Dir) (id : ℕ) : Dir where
  pageSize := d.pageSize
  ids := if id ∈ d.ids then d.ids else d.ids.orderedInsert (· ≤ ·) id
  file := Function.update d.file id
    ⟨max (d.openFile id).size d.mappingSize, (d.openFile id).bytes.store (d.mappingSize - 1) [0]⟩

end Dir

/-! ## Loading -/

namespace Page

/-- The checks of `page::load` on a page that has a header. -/
def checkHeader (d : Dir) (id : ℕ) : Except (Fault × Dir) Dir :=
  let m := d.mem id
  if version m ≠ journalVersion then
    .error (.journalError (.versionMismatch (version m)), d)
  else if (pageHeaderLength m).toNat ≠ pageHeaderSize then
    .error (.journalError (.headerLengthMismatch (pageHeaderLength m)), d)
  else if pageSize m ≠ d.pageSize then
    .error (.journalError (.pageSizeMismatch d.pageSize (pageSize m)), d)
  else .ok d

/-- `page::load`.  Only a reader that is also lazy maps the page read-only. -/
def load (d : Dir) (id : ℕ) (isWriting lazy : Bool) : Except (Fault × Dir) Dir :=
  if isWriting || !lazy then
    let d := d.stretch id
    if lastFramePosition (d.mem id) = 0 then
      checkHeader (d.setMem id (initHeader d.pageSize (d.mem id))) id
    else checkHeader d id
  else if id ∉ d.ids then .error (.journalError (.notReady 0), d)
  else if (d.file id).size < pageHeaderSize then
    .error (.journalError (.notReady (d.file id).size), d)
  else if lastFramePosition (d.mem id) = 0 then
    -- the header is initialised through a `PROT_READ` mapping
    .error (.readOnlyMapping, d)
  else checkHeader d id

/-- The search loop of `page::find_page_id`, over page ids from the last one down.
Only a `journal_error` is caught. -/
def findFrom (d : Dir) (time : Int64) (front : ℕ) : List ℕ → Except Fault ℕ
  | [] => .ok front
  | id :: rest =>
      match load d id false true with
      | .ok d' => if beginTime (d'.mem id) < time then .ok id else findFrom d time front rest
      | .error (.journalError _, _) => findFrom d time front rest
      | .error (fault, _) => .error fault

/-- `page::find_page_id`. -/
def findPageId (d : Dir) (time : Int64) : Except Fault ℕ :=
  match d.ids with
  | [] => .ok 1
  | front :: _ => if time = 0 then .ok front else findFrom d time front d.ids.reverse

end Page

end Kungfu.Yijinjing
