import Kungfu.Yijinjing.Hash
import Kungfu.Yijinjing.Reopen
import Kungfu.Logic.Outcome
import Mathlib.Data.Nat.Bitwise
import Mathlib.Data.Prod.Lex

/-!
# Frame ids

`writer::current_frame_uid` packs the page id and the frame's number in the page into 16
bits each and mixes them with a hash of the writer's start time.  The API service forces
the top bit of the lower half in addition, so it keeps 15 bits of the page id.

The slots that ids are drawn for only move forward while a writer lives, so two draws of
one writer collide exactly when their counters agree in the bits that are kept.  Draws of
two writers collide when their counters differ just as the hashes of the start times do.
-/

namespace Kungfu.Yijinjing

open Memory Outcome

/-! ## The hash of a clock reading -/

/-- `time::nano_hashed`: `MurmurHash3_x86_32` of the eight bytes, with seed 42. -/
def nanoHashed (nanoTime : Int64) : UInt32 :=
  let bits := nanoTime.toUInt64
  Murmur.fmix32 (Murmur.block (Murmur.block 42 bits.toUInt32) (bits >>> 32).toUInt32 ^^^ 8)

/-! ## Ids -/

namespace Writer

/-- The page id and the frame number, truncated to 16 bits each. -/
def slotCode (c : Cursor) : UInt32 :=
  let pagePart := (UInt32.ofNat c.page <<< 16) &&& 0xFFFF0000
  let framePart := UInt32.ofNat c.pageFrameNb &&& 0x0000FFFF
  pagePart ||| framePart

/-- `writer::current_frame_uid`. -/
def currentFrameUid (s : State) : Except Fault UInt64 := do
  let c ← cursor s
  .ok (s.2.frameIdBase ||| (slotCode c ^^^ s.2.writerStartTime).toUInt64)

/-- `ApiService::make_instruction_uid`. -/
def makeInstructionUid (dest clientId : UInt32) (s : State) : Except Fault UInt64 := do
  let uid ← currentFrameUid s
  let idLeft := (clientId ^^^ dest).toUInt64 <<< 32
  let idRight := (0x00000000FFFFFFFF &&& uid) ||| 0x80000000
  .ok (idLeft ||| idRight)

end Writer

/-- An id that was drawn: both kinds, and where and by which writer. -/
structure Draw where
  cursor : Cursor
  startHash : UInt32
  uid : UInt64
  instructionUid : UInt64

/-- A write of a process, with the id it draws for the frame. -/
inductive Placement
  /-- The id is drawn while the frame is open, as `insert_order` does. -/
  | order (now : Int64) (r : Writer.Record)
  /-- The id is drawn first and the frame is written then, as the API service does. -/
  | instruction (now : Int64) (r : Writer.Record)
  /-- A write without an id. -/
  | other (w : Write)

/-- A process: the clock readings of its writer's construction, what it places, and a last
order frame that was opened, given its id and never closed. -/
structure Session where
  startTime : Int64
  now : Int64
  lazy : Bool
  placements : List Placement
  opened : Option (Int64 × Writer.Record)

namespace Writer

/-- Draw both ids; the service's own location is the writer's. -/
def draw (s : State) : Except Fault Draw := do
  let c ← cursor s
  let uid ← currentFrameUid s
  let instructionUid ← makeInstructionUid s.2.journal.dest s.2.journal.location s
  .ok ⟨c, s.2.writerStartTime, uid, instructionUid⟩

/-- Perform a placement. -/
def place (b : Build) (s : State) : Placement → Except Fault (List Draw × State)
  | .order now r => do
      let s ← openFrame b now r.triggerTime r.msgType r.length s
      let a ← draw s
      let s ← fillFrame r.data r.as s
      let s ← closeFrame b r.data.length r.genTime s
      .ok ([a], s)
  | .instruction now r => do
      let a ← draw s
      let s ← write b now r s
      .ok ([a], s)
  | .other w => do
      let s ← w.run b s
      .ok ([], s)

/-- Perform placements one after another. -/
def placeAll (b : Build) (s : State) : List Placement → Except Fault (List Draw × State)
  | [] => .ok ([], s)
  | p :: ps => do
      let (as, s) ← place b s p
      let (bs, s) ← placeAll b s ps
      .ok (as ++ bs, s)

/-- Stop with a frame open, if one was opened. -/
def placeOpened (b : Build) (s : State) : Option (Int64 × Record) → Except Fault (List Draw × State)
  | none => .ok ([], s)
  | some (now, r) => do
      let s ← openFrame b now r.triggerTime r.msgType r.length s
      let a ← draw s
      let s ← fillFrame r.data r.as s
      .ok ([a], s)

end Writer

namespace Session

/-- A process constructs its writer and places. -/
def run (hash : Int64 → UInt32) (b : Build) (location dest : UInt32) (d : Dir) (i : Session) :
    Except Fault (List Draw × Dir) := do
  let s ← Writer.make hash location dest i.lazy i.startTime i.now d
  let (as, s) ← Writer.placeAll b s i.placements
  let (bs, s) ← Writer.placeOpened b s i.opened
  .ok (as ++ bs, s.1)

/-- Processes one after another, with the draws of each. -/
def runAll (hash : Int64 → UInt32) (b : Build) (location dest : UInt32) (d : Dir) :
    List Session → Except Fault (List (List Draw) × Dir)
  | [] => .ok ([], d)
  | i :: is => do
      let (draws, d) ← run hash b location dest d i
      let (rest, d) ← runAll hash b location dest d is
      .ok (draws :: rest, d)

end Session

/-! ## Slots move forward -/

/-- The page and the frame number of a slot, in the order in which frames are written. -/
def Cursor.slot (c : Cursor) : ℕ ×ₗ ℕ := toLex (c.page, c.pageFrameNb)

/-- A computation that completes, completes in `Q`. -/
abbrev Ensures {ε α : Type} (x : Except ε α) (Q : α → Prop) : Prop := Post x Q fun _ => True

theorem Ensures.trivial {ε α : Type} (x : Except ε α) : Ensures x fun _ => True := by
  cases x <;> exact True.intro

namespace Journal

/-- The same journal, at a slot that is `rel`ated to the one before. -/
def Moves (rel : ℕ ×ₗ ℕ → ℕ ×ₗ ℕ → Prop) (j j' : Journal) : Prop :=
  j'.location = j.location ∧ j'.dest = j.dest ∧
    ∀ c, j.cursor = some c → ∃ c', j'.cursor = some c' ∧ rel c.slot c'.slot

theorem loadNextPage_moves (s : State) :
    Ensures (loadNextPage s) fun s' => Moves (· < ·) s.2 s'.2 := by
  rw [loadNextPage]
  cases hc : s.2.cursor with
  | none => exact True.intro
  | some c =>
      have hslot : ∀ a, c.slot < (⟨c.page + 1, a, 0⟩ : Cursor).slot := fun a =>
        Prod.Lex.toLex_lt_toLex.mpr (Or.inl (Nat.lt_succ_self c.page))
      have hmoves : ∀ d, Moves (· < ·) s.2 (s.2.enterPage d (c.page + 1)) := by
        refine fun d => ⟨rfl, rfl, fun c₀ hc₀ => ⟨_, rfl, ?_⟩⟩
        obtain rfl : c = c₀ := Option.some.inj (hc.symm.trans hc₀)
        exact hslot _
      simp only [loadPage]
      refine post_ite (fun _ => hmoves s.1) fun _ => ?_
      cases Page.load s.1 (c.page + 1) s.2.isWriting s.2.lazy with
      | ok d => exact hmoves d
      | error e => exact True.intro

theorem next_moves (s : State) : Ensures (next s) fun s' => Moves (· < ·) s.2 s'.2 := by
  have hload := loadNextPage_moves s
  rw [next]
  cases hc : s.2.cursor with
  | none => exact True.intro
  | some c =>
      refine post_ite (fun _ => hload) fun _ => ⟨rfl, rfl, fun c₀ hc₀ => ⟨_, rfl, ?_⟩⟩
      obtain rfl : c = c₀ := Option.some.inj (hc.symm.trans hc₀)
      exact Prod.Lex.toLex_lt_toLex.mpr (Or.inr ⟨rfl, Nat.lt_succ_self _⟩)

end Journal

namespace Writer

/-- The same writer, at a slot that is `rel`ated to the one before. -/
structure Moves (rel : ℕ ×ₗ ℕ → ℕ ×ₗ ℕ → Prop) (s s' : State) : Prop where
  frameIdBase : s'.2.frameIdBase = s.2.frameIdBase
  writerStartTime : s'.2.writerStartTime = s.2.writerStartTime
  journal : Journal.Moves rel s.2.journal s'.2.journal

variable {rel rel' : ℕ ×ₗ ℕ → ℕ ×ₗ ℕ → Prop} {s s' s'' : State}

/-- A step that leaves the writer object and its cursor as they are. -/
theorem Moves.of_eq (hrel : ∀ x, rel x x) (hbase : s'.2.frameIdBase = s.2.frameIdBase)
    (hstart : s'.2.writerStartTime = s.2.writerStartTime) (hj : s'.2.journal = s.2.journal) :
    Moves rel s s' :=
  ⟨hbase, hstart, by rw [hj], by rw [hj], fun c hc => ⟨c, by rw [hj, hc], hrel _⟩⟩

theorem Moves.trans {rel'' : ℕ ×ₗ ℕ → ℕ ×ₗ ℕ → Prop} (H : Moves rel s s') (H' : Moves rel' s' s'')
    (hrel : ∀ {x y z}, rel x y → rel' y z → rel'' x z) : Moves rel'' s s'' := by
  refine ⟨H'.frameIdBase.trans H.frameIdBase, H'.writerStartTime.trans H.writerStartTime,
    H'.journal.1.trans H.journal.1, H'.journal.2.1.trans H.journal.2.1, fun c hc => ?_⟩
  obtain ⟨c', hc', hle⟩ := H.journal.2.2 c hc
  obtain ⟨c'', hc'', hle'⟩ := H'.journal.2.2 c' hc'
  exact ⟨c'', hc'', hrel hle hle'⟩

theorem Moves.imp (H : Moves rel s s') (hrel : ∀ {x y}, rel x y → rel' x y) : Moves rel' s s' :=
  ⟨H.frameIdBase, H.writerStartTime, H.journal.1, H.journal.2.1, fun c hc => by
    obtain ⟨c', hc', h⟩ := H.journal.2.2 c hc
    exact ⟨c', hc', hrel h⟩⟩

theorem onJournal_moves {f : Journal.State → Journal.Result}
    (hf : Ensures (f (s.1, s.2.journal)) fun t => Journal.Moves rel s.2.journal t.2) :
    Ensures (onJournal f s) fun s' => Moves rel s s' := by
  rw [onJournal]
  cases hx : f (s.1, s.2.journal) with
  | ok t => exact ⟨rfl, rfl, hf.of_ok hx⟩
  | error e => exact True.intro

theorem closePage_moves (now triggerTime : Int64) (s : State) :
    Ensures (closePage now triggerTime s) fun s' => Moves (· < ·) s s' := by
  refine (Ensures.trivial _).bind fun c _ => ?_
  refine (onJournal_moves (Journal.loadNextPage_moves _)).bind fun s₁ H => ?_
  refine (Ensures.trivial _).bind fun m _ => (Ensures.trivial _).bind fun m _ =>
    (Ensures.trivial _).bind fun m _ => ?_
  exact ⟨H.frameIdBase, H.writerStartTime, H.journal⟩

theorem switchPage_moves (now triggerTime : Int64) (n : ℕ) (s : State) :
    Ensures (switchPage now triggerTime n s) fun s' => Moves (· ≤ ·) s s' := by
  refine (Ensures.trivial _).bind fun c _ => post_ite (fun _ => ?_) fun _ => ?_
  · exact (closePage_moves now triggerTime s).imp fun s' H => H.imp le_of_lt
  · exact Moves.of_eq le_refl rfl rfl rfl

theorem openFrame_moves (b : Build) (now triggerTime : Int64) (msgType : Int32) (len : UInt32)
    (s : State) :
    Ensures (openFrame b now triggerTime msgType len s) fun s' => Moves (· ≤ ·) s s' := by
  refine (Ensures.trivial _).bind fun c _ => (Ensures.trivial _).bind fun _ _ =>
    post_ite (fun _ => True.intro) fun _ => ?_
  refine (switchPage_moves _ _ _ _).bind fun s₁ H => ?_
  refine (Ensures.trivial _).bind fun c _ => (Ensures.trivial _).bind fun m _ => ?_
  exact ⟨H.frameIdBase, H.writerStartTime, H.journal⟩

theorem fillFrame_moves (data : List UInt8) (as : Option (UInt32 × UInt32)) (s : State) :
    Ensures (fillFrame data as s) fun s' => Moves (· ≤ ·) s s' := by
  refine (Ensures.trivial _).bind fun c _ => (Ensures.trivial _).bind fun m _ => ?_
  cases as with
  | none => exact Moves.of_eq le_refl rfl rfl rfl
  | some addr =>
      refine (Ensures.trivial _).bind fun m _ => (Ensures.trivial _).bind fun m _ => ?_
      exact Moves.of_eq le_refl rfl rfl rfl

theorem closeFrame_moves (b : Build) (dataLength : ℕ) (genTime : Int64) (s : State) :
    Ensures (closeFrame b dataLength genTime s) fun s' => Moves (· < ·) s s' := by
  refine (Ensures.trivial _).bind fun _ _ => (Ensures.trivial _).bind fun c _ =>
    (Ensures.trivial _).bind fun _ _ => ?_
  refine (Ensures.trivial _).bind fun m _ => (Ensures.trivial _).bind fun m _ =>
    (Ensures.trivial _).bind fun m _ => ?_
  exact (onJournal_moves (Journal.next_moves _)).imp fun s' H =>
    ⟨H.frameIdBase, H.writerStartTime, H.journal⟩

theorem copyFrame_moves (b : Build) (triggerTime now : Int64) (src : Mem) (a : ℕ) (s : State) :
    Ensures (copyFrame b triggerTime now src a s) fun s' => Moves (· < ·) s s' := by
  refine (Ensures.trivial _).bind fun c _ => (Ensures.trivial _).bind fun _ _ =>
    (switchPage_moves _ _ _ _).bind fun s₁ H => ?_
  refine (Ensures.trivial _).bind fun c _ => (Ensures.trivial _).bind fun m _ =>
    (Ensures.trivial _).bind fun m _ => (Ensures.trivial _).bind fun m _ => ?_
  refine (onJournal_moves (Journal.next_moves _)).imp fun s' H' => ?_
  exact H.trans ⟨H'.frameIdBase, H'.writerStartTime, H'.journal⟩ lt_of_le_of_lt

theorem write_moves (b : Build) (now : Int64) (r : Record) (s : State) :
    Ensures (write b now r s) fun s' => Moves (· < ·) s s' := by
  refine (openFrame_moves _ _ _ _ _ _).bind fun s₁ H₁ => (fillFrame_moves _ _ _).bind
    fun s₂ H₂ => (closeFrame_moves _ _ _ _).imp fun s₃ H₃ => ?_
  exact (H₁.trans H₂ le_trans).trans H₃ lt_of_le_of_lt

theorem run_moves (b : Build) (w : Write) (s : State) :
    Ensures (w.run b s) fun s' => Moves (· < ·) s s' := by
  cases w with
  | record now r => exact write_moves b now r s
  | copy triggerTime now src a => exact copyFrame_moves b triggerTime now src a s

end Writer

/-! ## The draws of one writer -/

/-- The ids that the writer of `(location, dest)` started at `startHash` draws at `c`. -/
def Draw.at (location dest startHash : UInt32) (c : Cursor) : Draw :=
  let base := (location ^^^ dest).toUInt64 <<< 32
  let uid := base ||| (Writer.slotCode c ^^^ startHash).toUInt64
  ⟨c, startHash, uid, base ||| ((0x00000000FFFFFFFF &&& uid) ||| 0x80000000)⟩

namespace Writer

variable {location dest startHash : UInt32} {s s' s'' : State}

/-- The writer of `(location, dest)` started at `startHash`. -/
structure Started (location dest startHash : UInt32) (s : State) : Prop where
  frameIdBase : s.2.frameIdBase = (location ^^^ dest).toUInt64 <<< 32
  writerStartTime : s.2.writerStartTime = startHash
  location : s.2.journal.location = location
  dest : s.2.journal.dest = dest

theorem Started.moves {rel : ℕ ×ₗ ℕ → ℕ ×ₗ ℕ → Prop} (H : Started location dest startHash s)
    (H' : Moves rel s s') : Started location dest startHash s' :=
  ⟨H'.frameIdBase.trans H.frameIdBase, H'.writerStartTime.trans H.writerStartTime,
    H'.journal.1.trans H.location, H'.journal.2.1.trans H.dest⟩

theorem draw_started (H : Started location dest startHash s) :
    Ensures (draw s) fun a => ∃ c, s.2.journal.cursor = some c ∧
      a = Draw.at location dest startHash c := by
  cases hc : s.2.journal.cursor with
  | none => simp [draw, cursor, hc, bind, Except.bind]
  | some c =>
      have hdraw : draw s = .ok (Draw.at location dest startHash c) := by
        simp only [draw, makeInstructionUid, currentFrameUid, cursor, hc, ok_bind, H.frameIdBase,
          H.writerStartTime, H.location, H.dest]
        rfl
      rw [hdraw]
      exact ⟨c, rfl, rfl⟩

/-- From `s` to `s'` ids were drawn, each at a later slot than the one before. -/
structure Draws (location dest startHash : UInt32) (s : State) (as : List Draw) (s' : State) :
    Prop where
  moves : Moves (· ≤ ·) s s'
  eq_at : ∀ a ∈ as, a = Draw.at location dest startHash a.cursor
  after : ∀ a ∈ as, ∀ c, s.2.journal.cursor = some c → c.slot ≤ a.cursor.slot
  before : ∀ a ∈ as, ∃ c, s'.2.journal.cursor = some c ∧ a.cursor.slot < c.slot
  increasing : as.Pairwise fun a a' => a.cursor.slot < a'.cursor.slot

theorem Draws.nil {rel : ℕ ×ₗ ℕ → ℕ ×ₗ ℕ → Prop} (H : Moves rel s s')
    (hrel : ∀ {x y}, rel x y → x ≤ y) : Draws location dest startHash s [] s' :=
  ⟨H.imp hrel, fun _ h => absurd h List.not_mem_nil, fun _ h => absurd h List.not_mem_nil,
    fun _ h => absurd h List.not_mem_nil, List.Pairwise.nil⟩

theorem Draws.append {as bs : List Draw} (H : Draws location dest startHash s as s')
    (H' : Draws location dest startHash s' bs s'') :
    Draws location dest startHash s (as ++ bs) s'' := by
  refine ⟨H.moves.trans H'.moves le_trans, fun a ha => ?_, fun a ha c hc => ?_, fun a ha => ?_, ?_⟩
  · rcases List.mem_append.mp ha with ha | ha
    · exact H.eq_at a ha
    · exact H'.eq_at a ha
  · rcases List.mem_append.mp ha with ha | ha
    · exact H.after a ha c hc
    · obtain ⟨c', hc', hle⟩ := H.moves.journal.2.2 c hc
      exact hle.trans (H'.after a ha c' hc')
  · rcases List.mem_append.mp ha with ha | ha
    · obtain ⟨c, hc, hlt⟩ := H.before a ha
      obtain ⟨c', hc', hle⟩ := H'.moves.journal.2.2 c hc
      exact ⟨c', hc', hlt.trans_le hle⟩
    · exact H'.before a ha
  · refine List.pairwise_append.mpr ⟨H.increasing, H'.increasing, fun a ha a' ha' => ?_⟩
    obtain ⟨c, hc, hlt⟩ := H.before a ha
    exact hlt.trans_le (H'.after a' ha' c hc)

/-- One draw on the way from `s` to `s'`. -/
theorem Draws.single {c : Cursor} (H : Moves (· ≤ ·) s s')
    (hafter : ∀ c₀, s.2.journal.cursor = some c₀ → c₀.slot ≤ c.slot)
    (hbefore : ∃ c₁, s'.2.journal.cursor = some c₁ ∧ c.slot < c₁.slot) :
    Draws location dest startHash s [Draw.at location dest startHash c] s' := by
  refine ⟨H, fun a ha => ?_, fun a ha c₀ hc₀ => ?_, fun a ha => ?_, List.pairwise_singleton _ _⟩
  all_goals obtain rfl := List.mem_singleton.mp ha
  · rfl
  · exact hafter c₀ hc₀
  · exact hbefore

theorem place_draws (H : Started location dest startHash s) (b : Build) (p : Placement) :
    Ensures (place b s p) fun r => Draws location dest startHash s r.1 r.2 := by
  cases p with
  | order now r =>
      refine (openFrame_moves _ _ _ _ _ _).bind fun s₁ H₁ => ?_
      refine (draw_started (H.moves H₁)).bind fun a ha => ?_
      refine (fillFrame_moves _ _ _).bind fun s₂ H₂ => (closeFrame_moves _ _ _ _).bind
        fun s₃ H₃ => ?_
      obtain ⟨c, hc, rfl⟩ := ha
      have H₁₃ := H₂.trans H₃ lt_of_le_of_lt
      refine Draws.single (H₁.trans H₁₃ fun h h' => h.trans h'.le) (fun c₀ hc₀ => ?_)
        (H₁₃.journal.2.2 c hc)
      obtain ⟨c', hc', hle⟩ := H₁.journal.2.2 c₀ hc₀
      obtain rfl : c' = c := Option.some.inj (hc'.symm.trans hc)
      exact hle
  | instruction now r =>
      refine (draw_started H).bind fun a ha => (write_moves _ _ _ _).bind fun s₁ H₁ => ?_
      obtain ⟨c, hc, rfl⟩ := ha
      refine Draws.single (H₁.imp le_of_lt) (fun c₀ hc₀ => ?_) (H₁.journal.2.2 c hc)
      obtain rfl : c = c₀ := Option.some.inj (hc.symm.trans hc₀)
      exact le_rfl
  | other w => exact (run_moves b w s).bind fun s₁ H₁ => Draws.nil H₁ le_of_lt

theorem placeAll_draws (H : Started location dest startHash s) (b : Build) (ps : List Placement) :
    Ensures (placeAll b s ps) fun r => Draws location dest startHash s r.1 r.2 := by
  induction ps generalizing s with
  | nil => exact Draws.nil (Moves.of_eq le_refl rfl rfl rfl) id
  | cons p ps ih =>
      refine (place_draws H b p).bind fun r₁ H₁ => ?_
      refine (ih (H.moves H₁.moves)).bind fun r₂ H₂ => ?_
      exact H₁.append H₂

/-- The open frame stands at or behind the writer's slot. -/
theorem placeOpened_draws (H : Started location dest startHash s) (b : Build)
    (opened : Option (Int64 × Record)) :
    Ensures (placeOpened b s opened) fun r =>
      (∀ a ∈ r.1, a = Draw.at location dest startHash a.cursor ∧
        ∀ c, s.2.journal.cursor = some c → c.slot ≤ a.cursor.slot) ∧
      r.1.Pairwise fun a a' => a.cursor.slot < a'.cursor.slot := by
  rcases opened with - | ⟨now, r⟩
  · exact ⟨fun _ h => absurd h List.not_mem_nil, List.Pairwise.nil⟩
  refine (openFrame_moves _ _ _ _ _ _).bind fun s₁ H₁ => ?_
  refine (draw_started (H.moves H₁)).bind fun a ha => (fillFrame_moves _ _ _).bind fun s₂ _ => ?_
  refine ⟨fun a' ha' => ?_, List.pairwise_singleton _ _⟩
  obtain rfl := List.mem_singleton.mp ha'
  obtain ⟨c, hc, rfl⟩ := ha
  refine ⟨rfl, fun c₀ hc₀ => ?_⟩
  obtain ⟨c', hc', hle⟩ := H₁.journal.2.2 c₀ hc₀
  obtain rfl : c' = c := Option.some.inj (hc'.symm.trans hc)
  exact hle

end Writer

/-! ## Runs of several writers -/

namespace Journal

/-- A seek keeps the journal's addresses. -/
theorem loadPage_address (s : State) (id : ℕ) :
    Ensures (loadPage s id) fun s' => s'.2.location = s.2.location ∧ s'.2.dest = s.2.dest := by
  refine post_ite (fun _ => ⟨rfl, rfl⟩) fun _ => ?_
  cases Page.load s.1 id s.2.isWriting s.2.lazy with
  | ok d => exact ⟨rfl, rfl⟩
  | error e => exact True.intro

theorem skipPages_address (nanotime : Int64) (fuel : ℕ) (s : State) :
    Ensures (skipPages nanotime fuel s) fun s' =>
      s'.2.location = s.2.location ∧ s'.2.dest = s.2.dest := by
  induction fuel generalizing s with
  | zero => exact True.intro
  | succ fuel ih =>
      rw [skipPages]
      cases s.2.cursor with
      | none => exact True.intro
      | some c =>
          refine post_ite (fun _ => (loadNextPage_moves s).bind fun s₁ H₁ => ?_) fun _ => ⟨rfl, rfl⟩
          exact (ih s₁).imp fun s₂ H₂ => ⟨H₂.1.trans H₁.1, H₂.2.trans H₁.2.1⟩

theorem skipFrames_address (nanotime : Int64) (fuel : ℕ) (s : State) :
    Ensures (skipFrames nanotime fuel s) fun s' =>
      s'.2.location = s.2.location ∧ s'.2.dest = s.2.dest := by
  induction fuel generalizing s with
  | zero => exact True.intro
  | succ fuel ih =>
      rw [skipFrames]
      cases s.2.cursor with
      | none => exact True.intro
      | some c =>
          refine post_ite (fun _ => (next_moves s).bind fun s₁ H₁ => ?_) fun _ => ⟨rfl, rfl⟩
          exact (ih s₁).imp fun s₂ H₂ => ⟨H₂.1.trans H₁.1, H₂.2.trans H₁.2.1⟩

theorem seekToTime_address (s : State) (nanotime : Int64) :
    Ensures (seekToTime s nanotime) fun s' =>
      s'.2.location = s.2.location ∧ s'.2.dest = s.2.dest := by
  refine (Ensures.trivial _).bind fun id _ => (loadPage_address s id).bind fun s₁ H₁ => ?_
  refine (skipPages_address _ _ s₁).bind fun s₂ H₂ => (skipFrames_address _ _ s₂).imp
    fun s₃ H₃ => ⟨H₃.1.trans (H₂.1.trans H₁.1), H₃.2.trans (H₂.2.trans H₁.2)⟩

end Journal

theorem Writer.make_started (hash : Int64 → UInt32) (location dest : UInt32) (lazy : Bool)
    (startTime now : Int64) (d : Dir) :
    Ensures (make hash location dest lazy startTime now d)
      (Started location dest (hash startTime)) := by
  rw [make, onJournal]
  have hseek := Journal.seekToTime_address (d, Journal.make location dest true lazy) now
  cases hx : Journal.seekToTime (d, Journal.make location dest true lazy) now with
  | ok t =>
      obtain ⟨hloc, hdest⟩ := hseek.of_ok hx
      exact ⟨rfl, rfl, hloc, hdest⟩
  | error e => exact True.intro

/-- The draws of one writer: all with its start hash, at increasing slots. -/
structure OneWriter (location dest startHash : UInt32) (as : List Draw) : Prop where
  eq_at : ∀ a ∈ as, a = Draw.at location dest startHash a.cursor
  increasing : as.Pairwise fun a a' => a.cursor.slot < a'.cursor.slot

namespace Session

theorem run_draws (hash : Int64 → UInt32) (b : Build) (location dest : UInt32) (d : Dir)
    (i : Session) :
    Ensures (run hash b location dest d i) fun r =>
      OneWriter location dest (hash i.startTime) r.1 := by
  refine (Writer.make_started _ _ _ _ _ _ _).bind fun s H => ?_
  refine (Writer.placeAll_draws H b i.placements).bind fun r H' => ?_
  refine (Writer.placeOpened_draws (H.moves H'.moves) b i.opened).bind fun r' H'' => ?_
  refine ⟨fun a ha => ?_, ?_⟩
  · rcases List.mem_append.mp ha with ha | ha
    · exact H'.eq_at a ha
    · exact (H''.1 a ha).1
  · refine List.pairwise_append.mpr ⟨H'.increasing, H''.2, fun a ha a' ha' => ?_⟩
    obtain ⟨c, hc, hlt⟩ := H'.before a ha
    exact hlt.trans_le ((H''.1 a' ha').2 c hc)

/-- Every session of a run has its own draws. -/
theorem runAll_draws (hash : Int64 → UInt32) (b : Build) (location dest : UInt32) (d : Dir)
    (is : List Session) :
    Ensures (runAll hash b location dest d is) fun r =>
      (is.zip r.1).map Prod.fst = is ∧ (is.zip r.1).map Prod.snd = r.1 ∧
        ∀ p ∈ is.zip r.1, OneWriter location dest (hash p.1.startTime) p.2 := by
  induction is generalizing d with
  | nil => exact ⟨rfl, rfl, fun _ h => absurd h List.not_mem_nil⟩
  | cons i is ih =>
      refine (run_draws _ _ _ _ _ _).bind fun r₁ H₁ => (ih r₁.2).bind fun r₂ H₂ => ?_
      refine ⟨congrArg (i :: ·) H₂.1, congrArg (r₁.1 :: ·) H₂.2.1, fun p hp => ?_⟩
      rcases List.mem_cons.mp hp with rfl | hp
      · exact H₁
      · exact H₂.2.2 p hp

end Session

/-! ## When two ids are equal -/

/-- The counters of two slots agree in the bits an id keeps: `w` of the page id and 16 of
the frame number. -/
def Wraps (w : ℕ) (c c' : Cursor) : Prop :=
  c.page % 2 ^ w = c'.page % 2 ^ w ∧ c.pageFrameNb % 2 ^ 16 = c'.pageFrameNb % 2 ^ 16

/-- In their low `k` bits, two packed slots differ exactly where the start hashes of their
writers differ. -/
def Meets (k : ℕ) (a a' : Draw) : Prop :=
  (Writer.slotCode a.cursor ^^^ Writer.slotCode a'.cursor).toNat % 2 ^ k =
    (a.startHash ^^^ a'.startHash).toNat % 2 ^ k

/-- In the bits an id keeps, the page ids and the frame numbers of two slots differ just as the
hashes of the start times of their writers do: the upper half of the hashes for the page ids, the
lower half for the frame numbers. -/
def Coincide (w : ℕ) (startHash startHash' : UInt32) (c c' : Cursor) : Prop :=
  (c.page ^^^ c'.page) % 2 ^ w = (startHash ^^^ startHash').toNat / 2 ^ 16 % 2 ^ w ∧
    (c.pageFrameNb ^^^ c'.pageFrameNb) % 2 ^ 16 = (startHash ^^^ startHash').toNat % 2 ^ 16

instance (w : ℕ) (c c' : Cursor) : Decidable (Wraps w c c') := inferInstanceAs (Decidable (_ ∧ _))

instance (w : ℕ) (h h' : UInt32) (c c' : Cursor) : Decidable (Coincide w h h' c c') :=
  inferInstanceAs (Decidable (_ ∧ _))

instance (k : ℕ) (a a' : Draw) : Decidable (Meets k a a') := inferInstanceAs (Decidable (_ = _))

theorem toNat_slotCode (c : Cursor) : (Writer.slotCode c).toNat =
    c.page % 2 ^ 16 * 2 ^ 16 + c.pageFrameNb % 2 ^ 16 := by
  have hpage : (UInt32.ofNat c.page <<< 16 &&& 0xFFFF0000).toNat = (c.page % 2 ^ 16) <<< 16 := by
    have hshift : (UInt32.ofNat c.page <<< 16).toNat = (c.page % 2 ^ 16) <<< 16 := by
      simp [UInt32.toNat_shiftLeft, Nat.shiftLeft_eq]
      omega
    have hmask : (0xFFFF0000 : UInt32).toNat = (2 ^ 16 - 1) <<< 16 := by decide
    rw [UInt32.toNat_and, hshift, hmask, ← Nat.shiftLeft_and_distrib,
      Nat.and_two_pow_sub_one_eq_mod, Nat.mod_mod]
  have hframe : (UInt32.ofNat c.pageFrameNb &&& 0x0000FFFF).toNat = c.pageFrameNb % 2 ^ 16 := by
    have hmask : (0x0000FFFF : UInt32).toNat = 2 ^ 16 - 1 := by decide
    rw [UInt32.toNat_and, hmask, Nat.and_two_pow_sub_one_eq_mod]
    simp
  rw [Writer.slotCode, UInt32.toNat_or, hpage, hframe,
    ← Nat.shiftLeft_add_eq_or_of_lt (Nat.mod_lt _ (by decide)), Nat.shiftLeft_eq]

/-- What is mixed by exclusive or may be moved to the other side. -/
theorem xor_eq_xor_iff {a b c d : ℕ} : a ^^^ c = b ^^^ d ↔ a ^^^ b = c ^^^ d := by
  have hmove : (a ^^^ c) ^^^ (b ^^^ d) = (a ^^^ b) ^^^ (c ^^^ d) := by ac_rfl
  rw [← Nat.xor_eq_zero_iff, hmove, Nat.xor_eq_zero_iff]

theorem mod_xor_eq_iff (k : ℕ) (x y h h' : UInt32) :
    (x ^^^ h).toNat % 2 ^ k = (y ^^^ h').toNat % 2 ^ k ↔
      (x ^^^ y).toNat % 2 ^ k = (h ^^^ h').toNat % 2 ^ k := by
  simp only [UInt32.toNat_xor, Nat.xor_mod_two_pow]
  exact xor_eq_xor_iff

/-- Forcing the top bit keeps 31 bits. -/
theorem or_top_eq_iff (x y : UInt32) :
    x ||| 0x80000000 = y ||| 0x80000000 ↔ x.toNat % 2 ^ 31 = y.toNat % 2 ^ 31 := by
  have htop : ∀ x : UInt32, (x ||| 0x80000000).toNat % 2 ^ 31 = x.toNat % 2 ^ 31 ∧
      2 ^ 31 ≤ (x ||| 0x80000000).toNat := by
    intro x
    have hmask : (0x80000000 : UInt32).toNat = 2 ^ 31 := by decide
    rw [UInt32.toNat_or, hmask]
    exact ⟨by rw [Nat.or_mod_two_pow]; simp, Nat.right_le_or⟩
  have hx := htop x
  have hy := htop y
  have hlx := (x ||| 0x80000000).toNat_lt
  have hly := (y ||| 0x80000000).toNat_lt
  rw [← UInt32.toNat_inj]
  omega

theorem toUInt32_base (x : UInt32) : (x.toUInt64 <<< 32).toUInt32 = 0 := by
  refine UInt32.toNat_inj.mp ?_
  simp [UInt64.toNat_shiftLeft, Nat.shiftLeft_eq]

section Equality

variable (location dest : UInt32)

theorem toUInt32_uid (h : UInt32) (c : Cursor) :
    (Draw.at location dest h c).uid.toUInt32 = Writer.slotCode c ^^^ h := by
  simp only [Draw.at, UInt64.toUInt32_or, toUInt32_base, UInt32.toUInt32_toUInt64, UInt32.zero_or]

theorem uid_eq_iff (h h' : UInt32) (c c' : Cursor) :
    (Draw.at location dest h c).uid = (Draw.at location dest h' c').uid ↔
      Meets 32 (Draw.at location dest h c) (Draw.at location dest h' c') := by
  have hmeets := mod_xor_eq_iff 32 (Writer.slotCode c) (Writer.slotCode c') h h'
  rw [Nat.mod_eq_of_lt (UInt32.toNat_lt _), Nat.mod_eq_of_lt (UInt32.toNat_lt _),
    UInt32.toNat_inj] at hmeets
  refine Iff.trans ⟨fun heq => ?_, fun heq => ?_⟩ hmeets
  · rw [← toUInt32_uid location dest h c, heq, toUInt32_uid]
  · simp only [Draw.at, heq]

/-- The lower half of an id. -/
theorem and_mask (x : UInt64) : 0x00000000FFFFFFFF &&& x = x.toUInt32.toUInt64 := by
  have hlit : (0x00000000FFFFFFFF : UInt64).toNat = 2 ^ 32 - 1 := by decide
  refine UInt64.toNat_inj.mp ?_
  rw [UInt64.toNat_and, hlit, Nat.and_comm, Nat.and_two_pow_sub_one_eq_mod,
    UInt32.toNat_toUInt64, UInt64.toNat_toUInt32]

theorem instructionUid_eq_iff (h h' : UInt32) (c c' : Cursor) :
    (Draw.at location dest h c).instructionUid = (Draw.at location dest h' c').instructionUid ↔
      Meets 31 (Draw.at location dest h c) (Draw.at location dest h' c') := by
  have hlow : ∀ h c, (Draw.at location dest h c).instructionUid =
      (location ^^^ dest).toUInt64 <<< 32 |||
        ((Writer.slotCode c ^^^ h) ||| 0x80000000).toUInt64 := by
    intro h c
    rw [UInt32.toUInt64_or, ← toUInt32_uid location dest, ← and_mask]
    rfl
  have hlow32 : ∀ h c, (Draw.at location dest h c).instructionUid.toUInt32 =
      (Writer.slotCode c ^^^ h) ||| 0x80000000 := by
    intro h c
    rw [hlow, UInt64.toUInt32_or, toUInt32_base, UInt32.toUInt32_toUInt64, UInt32.zero_or]
  have hmeets := mod_xor_eq_iff 31 (Writer.slotCode c) (Writer.slotCode c') h h'
  refine Iff.trans ⟨fun heq => ?_, fun heq => ?_⟩ hmeets
  · rw [← or_top_eq_iff, ← hlow32, heq, hlow32]
  · rw [hlow, hlow, (or_top_eq_iff _ _).mpr heq]

/-- Packed slots meet when both counters differ as the start hashes do. -/
theorem meets_iff_coincide (w : ℕ) (hw : w ≤ 16) (h h' : UInt32) (c c' : Cursor) :
    Meets (16 + w) (Draw.at location dest h c) (Draw.at location dest h' c') ↔
      Coincide w h h' c c' := by
  have hsplit : ∀ x y : ℕ, x % 2 ^ (16 + w) = y % 2 ^ (16 + w) ↔
      x / 2 ^ 16 % 2 ^ w = y / 2 ^ 16 % 2 ^ w ∧ x % 2 ^ 16 = y % 2 ^ 16 := by
    intro x y
    rw [Nat.pow_add, Nat.mod_mul, Nat.mod_mul]
    have hx := Nat.mod_lt x (show 0 < 2 ^ 16 by decide)
    have hy := Nat.mod_lt y (show 0 < 2 ^ 16 by decide)
    generalize x / 2 ^ 16 % 2 ^ w = m
    generalize y / 2 ^ 16 % 2 ^ w = n
    omega
  have hpage : ∀ c : Cursor, (Writer.slotCode c).toNat / 2 ^ 16 % 2 ^ w = c.page % 2 ^ w := by
    intro c
    have hlt := Nat.mod_lt c.pageFrameNb (show 0 < 2 ^ 16 by decide)
    rw [toNat_slotCode, Nat.mul_comm, Nat.mul_add_div (by decide), Nat.div_eq_of_lt hlt,
      Nat.add_zero, Nat.mod_mod_of_dvd _ (Nat.pow_dvd_pow 2 hw)]
  have hframe : ∀ c : Cursor, (Writer.slotCode c).toNat % 2 ^ 16 = c.pageFrameNb % 2 ^ 16 := by
    intro c
    rw [toNat_slotCode, Nat.mul_comm, Nat.mul_add_mod, Nat.mod_mod]
  refine (hsplit _ _).trans (and_congr (Eq.congr_left ?_) (Eq.congr_left ?_))
  · simp only [UInt32.toNat_xor, Nat.xor_div_two_pow, Nat.xor_mod_two_pow, Draw.at, hpage]
  · simp only [UInt32.toNat_xor, Nat.xor_mod_two_pow, Draw.at, hframe]

end Equality

/-- Under one start hash the counters differ in no bit that is kept. -/
theorem coincide_self_iff {w : ℕ} {h : UInt32} {c c' : Cursor} :
    Coincide w h h c c' ↔ Wraps w c c' := by
  have hself : (h ^^^ h).toNat = 0 := by simp
  simp only [Coincide, Wraps, hself, Nat.zero_div, Nat.zero_mod, Nat.xor_mod_two_pow,
    Nat.xor_eq_zero_iff]

/-- The counters of two slots of one writer do not wrap while they stay below their bounds. -/
theorem not_wraps_of_lt {w : ℕ} {c c' : Cursor} (hlt : c.slot < c'.slot)
    (hpage : c.page < 2 ^ w) (hpage' : c'.page < 2 ^ w) (hframe : c.pageFrameNb < 2 ^ 16)
    (hframe' : c'.pageFrameNb < 2 ^ 16) : ¬ Wraps w c c' := by
  rintro ⟨heqPage, heqFrame⟩
  rw [Nat.mod_eq_of_lt hpage, Nat.mod_eq_of_lt hpage'] at heqPage
  rw [Nat.mod_eq_of_lt hframe, Nat.mod_eq_of_lt hframe'] at heqFrame
  rw [Cursor.slot, Cursor.slot, heqPage, heqFrame] at hlt
  exact absurd hlt (lt_irrefl _)

/-- Slots of two writers do not coincide where the hashes of their start times differ above all the
page ids, or above all the frame numbers, that the two use. -/
theorem not_coincide_of_lt {w p q : ℕ} {h h' : UInt32} {c c' : Cursor}
    (hpage : c.page < 2 ^ p) (hpage' : c'.page < 2 ^ p) (hframe : c.pageFrameNb < 2 ^ q)
    (hframe' : c'.pageFrameNb < 2 ^ q)
    (hdiffer : 2 ^ p ≤ (h ^^^ h').toNat / 2 ^ 16 % 2 ^ w ∨ 2 ^ q ≤ (h ^^^ h').toNat % 2 ^ 16) :
    ¬ Coincide w h h' c c' := by
  rintro ⟨heqPage, heqFrame⟩
  rcases hdiffer with hdiffer | hdiffer
  · have hlt := (Nat.mod_le _ (2 ^ w)).trans_lt (Nat.xor_lt_two_pow hpage hpage')
    omega
  · have hlt := (Nat.mod_le _ (2 ^ 16)).trans_lt (Nat.xor_lt_two_pow hframe hframe')
    omega

variable {location dest : UInt32}

/-- Ids that keep `w` bits of the page id are unique in a run when no two draws of one
writer wrap and no two draws of different writers coincide. -/
theorem nodup_iff {draws : List (Session × List Draw)} {hash : Int64 → UInt32}
    {f : Draw → UInt64} {w : ℕ} (hw : w ≤ 16)
    (H : ∀ p ∈ draws, OneWriter location dest (hash p.1.startTime) p.2)
    (hf : ∀ h h' c c', f (Draw.at location dest h c) = f (Draw.at location dest h' c') ↔
      Meets (16 + w) (Draw.at location dest h c) (Draw.at location dest h' c')) :
    ((draws.map Prod.snd).flatten.map f).Nodup ↔
      (∀ p ∈ draws, p.2.Pairwise fun a a' => ¬ Wraps w a.cursor a'.cursor) ∧
      draws.Pairwise fun p p' => ∀ a ∈ p.2, ∀ a' ∈ p'.2,
        ¬ Coincide w (hash p.1.startTime) (hash p'.1.startTime) a.cursor a'.cursor := by
  have hcoincide : ∀ p ∈ draws, ∀ p' ∈ draws, ∀ a ∈ p.2, ∀ a' ∈ p'.2, (f a = f a' ↔
      Coincide w (hash p.1.startTime) (hash p'.1.startTime) a.cursor a'.cursor) := by
    intro p hp p' hp' a ha a' ha'
    rw [(H p hp).eq_at a ha, (H p' hp').eq_at a' ha', hf, meets_iff_coincide location dest w hw]
    rfl
  rw [List.Nodup, List.pairwise_map, List.pairwise_flatten, List.pairwise_map, List.forall_mem_map]
  refine and_congr (forall₂_congr fun p hp => ?_) (List.Pairwise.iff_of_mem fun {p p'} hp hp' => ?_)
  · refine List.Pairwise.iff_of_mem fun {a a'} ha ha' => not_congr ?_
    exact (hcoincide p hp p hp a ha a' ha').trans coincide_self_iff
  · exact forall₂_congr fun a ha => forall₂_congr fun a' ha' =>
      not_congr (hcoincide p hp p' hp' a ha a' ha')

/-- The hashes of two start times differ above `2 ^ p` in the `w` bits kept for page ids, or above
`2 ^ q` in those for frame numbers. -/
def DifferAbove (w p q : ℕ) (startHash startHash' : UInt32) : Prop :=
  2 ^ p ≤ (startHash ^^^ startHash').toNat / 2 ^ 16 % 2 ^ w ∨
    2 ^ q ≤ (startHash ^^^ startHash').toNat % 2 ^ 16

theorem nodup_of_lt {draws : List (Session × List Draw)} {hash : Int64 → UInt32}
    {f : Draw → UInt64} {w p q : ℕ} (hw : w ≤ 16) (hp : p ≤ w) (hq : q ≤ 16)
    (H : ∀ r ∈ draws, OneWriter location dest (hash r.1.startTime) r.2)
    (hf : ∀ h h' c c', f (Draw.at location dest h c) = f (Draw.at location dest h' c') ↔
      Meets (16 + w) (Draw.at location dest h c) (Draw.at location dest h' c'))
    (hslots : ∀ r ∈ draws, ∀ a ∈ r.2, a.cursor.page < 2 ^ p ∧ a.cursor.pageFrameNb < 2 ^ q)
    (hdiffer : draws.Pairwise fun r r' =>
      DifferAbove w p q (hash r.1.startTime) (hash r'.1.startTime)) :
    ((draws.map Prod.snd).flatten.map f).Nodup := by
  have hpages := Nat.pow_le_pow_right (show 0 < 2 by decide) hp
  have hframes := Nat.pow_le_pow_right (show 0 < 2 by decide) hq
  refine (nodup_iff hw H hf).mpr ⟨fun r hr => ?_, ?_⟩
  · refine (H r hr).increasing.imp_of_mem fun {a a'} ha ha' hlt => ?_
    obtain ⟨hpage, hframe⟩ := hslots r hr a ha
    obtain ⟨hpage', hframe'⟩ := hslots r hr a' ha'
    exact not_wraps_of_lt hlt (hpage.trans_le hpages) (hpage'.trans_le hpages)
      (hframe.trans_le hframes) (hframe'.trans_le hframes)
  · refine hdiffer.imp_of_mem fun {r r'} hr hr' hdiffer a ha a' ha' => ?_
    obtain ⟨hpage, hframe⟩ := hslots r hr a ha
    obtain ⟨hpage', hframe'⟩ := hslots r' hr' a' ha'
    exact not_coincide_of_lt hpage hpage' hframe hframe' hdiffer

/-- Both kinds of ids are unique in a run whose page ids stay below `2 ^ p` and frame numbers below
`2 ^ q`, where the hashes of any two start times differ above one of these bounds. -/
theorem Session.nodup_of_runAll {hash : Int64 → UInt32} {b : Build} {d d' : Dir}
    {is : List Session} {draws : List (List Draw)} {p q : ℕ} (hp : p ≤ 15) (hq : q ≤ 16)
    (hrun : runAll hash b location dest d is = .ok (draws, d'))
    (hslots : ∀ as ∈ draws, ∀ a ∈ as, a.cursor.page < 2 ^ p ∧ a.cursor.pageFrameNb < 2 ^ q)
    (hdiffer : is.Pairwise fun i i' => DifferAbove 15 p q (hash i.startTime) (hash i'.startTime)) :
    (draws.flatten.map Draw.uid).Nodup ∧ (draws.flatten.map Draw.instructionUid).Nodup := by
  obtain ⟨hsessions, hdraws, H⟩ := (runAll_draws hash b location dest d is).of_ok hrun
  have hslots' : ∀ r ∈ is.zip draws, ∀ a ∈ r.2,
      a.cursor.page < 2 ^ p ∧ a.cursor.pageFrameNb < 2 ^ q :=
    fun r hr => hslots r.2 (List.of_mem_zip hr).2
  rw [← hsessions, List.pairwise_map] at hdiffer
  have hdiffer' : (is.zip draws).Pairwise fun r r' =>
      DifferAbove 16 p q (hash r.1.startTime) (hash r'.1.startTime) := by
    refine hdiffer.imp fun {r r'} h => h.imp_left fun hpage => hpage.trans ?_
    rw [← Nat.mod_mod_of_dvd _ (Nat.pow_dvd_pow 2 (show 15 ≤ 16 by decide))]
    exact Nat.mod_le _ _
  have huid := nodup_of_lt (by decide) (hp.trans (by decide)) hq H (uid_eq_iff location dest)
    hslots' hdiffer'
  have hinstruction := nodup_of_lt (by decide) hp hq H (instructionUid_eq_iff location dest)
    hslots' hdiffer
  rw [hdraws] at huid hinstruction
  exact ⟨huid, hinstruction⟩

/-- The ids drawn in a run are unique exactly when no two draws of one writer agree in the
kept bits of both counters, and no two draws of different writers have page ids and frame numbers
that differ just as the hashes of the start times do.  So they are while page ids and frame numbers
stay below bounds above one of which the hashes of any two start times differ. -/
theorem frame_uids_nodup_iff {hash : Int64 → UInt32} {b : Build} {d d' : Dir}
    {is : List Session} {draws : List (List Draw)}
    (hrun : Session.runAll hash b location dest d is = .ok (draws, d')) :
    ((draws.flatten.map Draw.uid).Nodup ↔
      (∀ p ∈ is.zip draws, p.2.Pairwise fun a a' => ¬ Wraps 16 a.cursor a'.cursor) ∧
      (is.zip draws).Pairwise fun p p' => ∀ a ∈ p.2, ∀ a' ∈ p'.2,
        ¬ Coincide 16 (hash p.1.startTime) (hash p'.1.startTime) a.cursor a'.cursor) ∧
    ((draws.flatten.map Draw.instructionUid).Nodup ↔
      (∀ p ∈ is.zip draws, p.2.Pairwise fun a a' => ¬ Wraps 15 a.cursor a'.cursor) ∧
      (is.zip draws).Pairwise fun p p' => ∀ a ∈ p.2, ∀ a' ∈ p'.2,
        ¬ Coincide 15 (hash p.1.startTime) (hash p'.1.startTime) a.cursor a'.cursor) ∧
    ∀ p q, p ≤ 15 → q ≤ 16 →
      (∀ as ∈ draws, ∀ a ∈ as, a.cursor.page < 2 ^ p ∧ a.cursor.pageFrameNb < 2 ^ q) →
      is.Pairwise (fun i i' => DifferAbove 15 p q (hash i.startTime) (hash i'.startTime)) →
        (draws.flatten.map Draw.uid).Nodup ∧ (draws.flatten.map Draw.instructionUid).Nodup := by
  obtain ⟨-, hdraws, H⟩ := (Session.runAll_draws hash b location dest d is).of_ok hrun
  have huid := nodup_iff (show 16 ≤ 16 by decide) H (uid_eq_iff location dest)
  have hinstruction := nodup_iff (show 15 ≤ 16 by decide) H (instructionUid_eq_iff location dest)
  rw [hdraws] at huid hinstruction
  exact ⟨huid, hinstruction, fun p q hp hq hslots hdiffer =>
    Session.nodup_of_runAll hp hq hrun hslots hdiffer⟩

/-- A process that writes one order. -/
def Session.single (startTime : Int64) : Session where
  startTime := startTime
  now := startTime
  lazy := false
  placements := [.order startTime ⟨0, 7, 3, [1, 2, 3], none, startTime⟩]
  opened := none

/-- Two processes, a second apart. -/
theorem frame_uids_nodup_iff_two :
    ∃ draws d', Session.runAll nanoHashed .checked 1 2 (Dir.empty 200)
        [.single 1700000004550013650, .single 1700000005550013650] = .ok (draws, d') ∧
      (draws.flatten.map Draw.uid).Nodup ∧ (draws.flatten.map Draw.instructionUid).Nodup := by
  let is : List Session := [.single 1700000004550013650, .single 1700000005550013650]
  have htest : okAnd (Session.runAll nanoHashed .checked 1 2 (Dir.empty 200) is) (fun r =>
      decide (∀ w ∈ [16, 15],
        (∀ p ∈ is.zip r.1, p.2.Pairwise fun a a' => ¬ Wraps w a.cursor a'.cursor) ∧
        (is.zip r.1).Pairwise fun p p' => ∀ a ∈ p.2, ∀ a' ∈ p'.2,
          ¬ Coincide w (nanoHashed p.1.startTime) (nanoHashed p'.1.startTime) a.cursor
            a'.cursor)) = true := by
    decide +kernel
  obtain ⟨⟨draws, d'⟩, hrun, htest⟩ := exists_of_okAnd htest
  have hdiffer := of_decide_eq_true htest
  obtain ⟨huid, hinstruction, -⟩ := frame_uids_nodup_iff hrun
  exact ⟨draws, d', hrun, huid.mpr (hdiffer 16 (by decide)), hinstruction.mpr (hdiffer 15 (by decide))⟩

/-- The start hashes of these two processes differ in their lowest bit only, so the second
order gets the id of the first. -/
theorem frame_uids_collide :
    ∃ draws d', Session.runAll nanoHashed .checked 1 2 (Dir.empty 200)
        [.single 1700000004550013650, .single 1700000027941083823] = .ok (draws, d') ∧
      ¬ (draws.flatten.map Draw.uid).Nodup ∧ ¬ (draws.flatten.map Draw.instructionUid).Nodup := by
  have htest : okAnd (Session.runAll nanoHashed .checked 1 2 (Dir.empty 200)
      [.single 1700000004550013650, .single 1700000027941083823]) (fun r =>
        decide (¬ (r.1.flatten.map Draw.uid).Nodup ∧
          ¬ (r.1.flatten.map Draw.instructionUid).Nodup)) = true := by
    decide +kernel
  obtain ⟨⟨draws, d'⟩, hrun, htest⟩ := exists_of_okAnd htest
  exact ⟨draws, d', hrun, of_decide_eq_true htest⟩

end Kungfu.Yijinjing
