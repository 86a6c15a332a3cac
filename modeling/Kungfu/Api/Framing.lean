import Kungfu.Logic.Run
import Kungfu.Memory.Bytes
import Mathlib.Data.List.Induction

/-!
# Framing

The API service puts the length of a message before it, in four bytes.  It hands both parts to
the socket of the client, and does not look at how much of them the socket accepts.  The client
appends what it reads to a buffer and takes all frames out of it that are complete; a frame that
is too long makes it give the connection up.
-/

namespace Kungfu.Api

open Logic Memory

abbrev Message := List UInt8

/-! ## Frames -/

/-- The bytes of `htonl`, in the order of the network. -/
def netLen (len : ℕ) : List UInt8 := (leBytes 4 len).reverse

/-- A message behind its length. -/
def frame (msg : Message) : List UInt8 := netLen msg.length ++ msg

/-- The frames of messages that follow each other. -/
def frames (messages : List Message) : List UInt8 := messages.flatMap frame

/-- What `onReadyRead` makes of the first four bytes. -/
def headLen (buffer : List UInt8) : ℕ := leNat (buffer.take 4).reverse

/-- The longest message that the client takes. -/
def maxFrame : ℕ := 64 * 1024

/-- What is taken out of a buffer, what is left of it, and whether the connection is given up. -/
structure Decoded where
  messages : List Message
  rest : List UInt8
  reset : Bool

/-- The loop of `onReadyRead`, at most as often as the fuel says.  The size of the buffer is
compared as a number of 32 bits. -/
def processBuffer : ℕ → List UInt8 → Decoded
  | 0, buffer => ⟨[], buffer, false⟩
  | fuel + 1, buffer =>
      if buffer.length < 4 then ⟨[], buffer, false⟩
      else if maxFrame < headLen buffer then ⟨[], buffer, true⟩
      else if buffer.length % 2 ^ 32 < 4 + headLen buffer then ⟨[], buffer, false⟩
      else
        let r := processBuffer fuel (buffer.drop (4 + headLen buffer))
        { r with messages := (buffer.drop 4).take (headLen buffer) :: r.messages }

/-- More bytes are needed for the next frame. -/
def Incomplete (buffer : List UInt8) : Prop :=
  4 ≤ buffer.length → headLen buffer ≤ maxFrame ∧ buffer.length < 4 + headLen buffer

/-- The next frame is too long. -/
def TooLong (buffer : List UInt8) : Prop := 4 ≤ buffer.length ∧ maxFrame < headLen buffer

/-- The client takes messages of this length. -/
def Fits (msg : Message) : Prop := msg.length ≤ maxFrame

section Frames

variable {fuel : ℕ} {buffer rest : List UInt8} {msg : Message} {messages messages' : List Message}

@[simp] theorem length_netLen (len : ℕ) : (netLen len).length = 4 := by simp [netLen]

@[simp] theorem length_frame (msg : Message) : (frame msg).length = 4 + msg.length := by
  simp [frame]

@[simp] theorem frames_nil : frames [] = [] := rfl

@[simp] theorem frames_cons : frames (msg :: messages) = frame msg ++ frames messages := rfl

@[simp] theorem frames_append : frames (messages ++ messages') = frames messages ++ frames messages' :=
  List.flatMap_append

theorem Fits.lt (h : Fits msg) : msg.length < 2 ^ 32 := by
  unfold Fits maxFrame at h
  omega

theorem headLen_append (h : 4 ≤ buffer.length) (rest : List UInt8) :
    headLen (buffer ++ rest) = headLen buffer := by
  rw [headLen, headLen, List.take_append_of_le_length h]

theorem headLen_frame (h : Fits msg) : headLen (frame msg ++ rest) = msg.length := by
  have htake : (frame msg ++ rest).take 4 = netLen msg.length := by
    rw [frame, List.append_assoc]
    exact List.take_left' (length_netLen _)
  rw [headLen, htake, netLen, List.reverse_reverse, leNat_leBytes]
  exact Nat.mod_eq_of_lt h.lt

/-- Four bytes are a length. -/
theorem netLen_headLen (h : 4 ≤ buffer.length) : netLen (headLen buffer) = buffer.take 4 := by
  have hlength : (buffer.take 4).reverse.length = 4 := by simp [h]
  have hbytes := leBytes_leNat (buffer.take 4).reverse
  rw [hlength] at hbytes
  rw [netLen, headLen, hbytes, List.reverse_reverse]

/-- What the loop takes out of a buffer that holds a whole frame, and what it leaves. -/
theorem frame_append_drop (h : 4 + headLen buffer ≤ buffer.length) :
    frame ((buffer.drop 4).take (headLen buffer)) ++ buffer.drop (4 + headLen buffer) = buffer := by
  have hlength : ((buffer.drop 4).take (headLen buffer)).length = headLen buffer := by
    rw [List.length_take, List.length_drop]
    omega
  rw [frame, hlength, netLen_headLen (by omega), ← List.drop_drop, List.append_assoc,
    List.take_append_drop, List.take_append_drop]

/-- What is taken out of a buffer and what is left make up the buffer. -/
theorem frames_processBuffer (fuel : ℕ) (buffer : List UInt8) :
    frames (processBuffer fuel buffer).messages ++ (processBuffer fuel buffer).rest = buffer := by
  fun_induction processBuffer fuel buffer with
  | case1 => rfl
  | case2 => rfl
  | case3 => rfl
  | case4 => rfl
  | case5 fuel buffer h4 hmax hsize r ih =>
      have hwhole : 4 + headLen buffer ≤ buffer.length := by
        have := Nat.mod_le buffer.length (2 ^ 32)
        omega
      rw [frames_cons, List.append_assoc, ih, frame_append_drop hwhole]

theorem fits_of_mem_processBuffer (h : msg ∈ (processBuffer fuel buffer).messages) : Fits msg := by
  fun_induction processBuffer fuel buffer with
  | case1 => simp at h
  | case2 => simp at h
  | case3 => simp at h
  | case4 => simp at h
  | case5 fuel buffer h4 hmax hsize r ih =>
      rcases List.mem_cons.mp h with rfl | hmem
      · rw [Fits, List.length_take]
        omega
      · exact ih hmem

/-- The loop ends with a buffer that it cannot go on with. -/
theorem rest_processBuffer (hfuel : buffer.length ≤ fuel) (hsize : buffer.length < 2 ^ 32) :
    ((processBuffer fuel buffer).reset = true → TooLong (processBuffer fuel buffer).rest) ∧
      ((processBuffer fuel buffer).reset = false → Incomplete (processBuffer fuel buffer).rest) := by
  fun_induction processBuffer fuel buffer with
  | case1 buffer => simp [Incomplete]; omega
  | case2 fuel buffer h4 => simp [Incomplete]; omega
  | case3 fuel buffer h4 hmax => simp [TooLong]; omega
  | case4 fuel buffer h4 hmax hwhole =>
      rw [Nat.mod_eq_of_lt hsize] at hwhole
      simp [Incomplete]
      omega
  | case5 fuel buffer h4 hmax hwhole r ih =>
      refine ih ?_ ?_ <;> rw [List.length_drop] <;> omega

/-- The frames at the start of a stream of frames are its first ones. -/
theorem exists_of_frames_append (hfits : ∀ msg ∈ messages, Fits msg)
    (hfits' : ∀ msg ∈ messages', Fits msg) (h : frames messages ++ rest = frames messages') :
    ∃ last, messages' = messages ++ last ∧ rest = frames last := by
  induction messages generalizing messages' with
  | nil => exact ⟨messages', rfl, h⟩
  | cons msg messages ih =>
      cases messages' with
      | nil =>
          have hlength := congrArg List.length h
          simp at hlength
      | cons msg' messages' =>
          have hmsg := hfits msg List.mem_cons_self
          have hmsg' := hfits' msg' List.mem_cons_self
          rw [frames_cons, frames_cons, List.append_assoc] at h
          have hlen : msg.length = msg'.length := by
            rw [← headLen_frame hmsg, h, headLen_frame hmsg']
          have hframes := List.append_inj h (by simp [hlen])
          have hsame : msg = msg' := (List.append_inj hframes.1 (by simp)).2
          obtain ⟨last, hlast, hrest⟩ := ih (fun m hm => hfits m (List.mem_cons_of_mem _ hm))
            (fun m hm => hfits' m (List.mem_cons_of_mem _ hm)) hframes.2
          exact ⟨last, by rw [hsame, hlast, List.cons_append], hrest⟩

end Frames

/-! ## The connection -/

/-- A connection of a client: what the service has queued for it, how often it has called `send`,
the bytes that were accepted and not yet read, and what the client has. -/
structure Connection where
  sendQueue : List Message
  calls : ℕ
  wire : List UInt8
  rxBuffer : List UInt8
  received : List Message
  reset : Bool

inductive Event where
  | queueSend (msg : Message)
  | drainSendQueues
  | readyRead (size : ℕ)

def Connection.start : Connection := ⟨[], 0, [], [], [], false⟩

/-- The message that an event queues. -/
def Event.queued : Event → List Message
  | .queueSend msg => [msg]
  | _ => []

/-- The messages that were queued. -/
def queued (events : List Event) : List Message := events.flatMap Event.queued

/-- What is passed for the length of a message. -/
def size32 (msg : Message) : ℕ := msg.length % 2 ^ 32

namespace Connection

section Model

variable (socket : ℕ → ℕ) (c : Connection)

/-- The n-th call of `send` accepts at most `socket n` bytes, and nobody asks how many. -/
def writeFrame (msg : Message) : Connection :=
  { c with
    calls := c.calls + 2
    wire := c.wire ++ ((netLen (size32 msg)).take (socket c.calls) ++
      (msg.take (size32 msg)).take (socket (c.calls + 1))) }

def drainSendQueues : Connection :=
  c.sendQueue.foldl (writeFrame socket) { c with sendQueue := [] }

/-- `readAll` gets as many bytes as have arrived; there is nothing to read once the connection
was given up. -/
def onReadyRead (size : ℕ) : Connection :=
  if c.reset then c
  else
    let buffer := c.rxBuffer ++ c.wire.take size
    let r := processBuffer buffer.length buffer
    { c with
      wire := c.wire.drop size
      rxBuffer := r.rest
      received := c.received ++ r.messages
      reset := r.reset }

def step : Event → Connection
  | .queueSend msg => { c with sendQueue := c.sendQueue ++ [msg] }
  | .drainSendQueues => c.drainSendQueues socket
  | .readyRead size => c.onReadyRead size

def run (events : List Event) : Connection := events.foldl (step socket) c

end Model

/-- The buffer of the client stays below the numbers of 32 bits. -/
def ReadFits (c : Connection) : Event → Prop
  | .readyRead size => (c.rxBuffer ++ c.wire.take size).length < 2 ^ 32
  | _ => True

/-- From the n-th message on, the client takes messages of these lengths and the socket accepts
both parts of their frames. -/
def Accepts (socket : ℕ → ℕ) : ℕ → List Message → Prop
  | _, [] => True
  | n, msg :: messages =>
      (Fits msg ∧ 4 ≤ socket (2 * n) ∧ msg.length ≤ socket (2 * n + 1)) ∧
        Accepts socket (n + 1) messages

/-- The bytes that the socket accepts of messages, from the n-th on. -/
def acceptedBytes (socket : ℕ → ℕ) : ℕ → List Message → List UInt8
  | _, [] => []
  | n, msg :: messages =>
      (netLen (size32 msg)).take (socket (2 * n)) ++
        (msg.take (size32 msg)).take (socket (2 * n + 1)) ++
        acceptedBytes socket (n + 1) messages

section Bytes

variable {socket : ℕ → ℕ} {n : ℕ} {messages messages' : List Message}

theorem acceptedBytes_append : acceptedBytes socket n (messages ++ messages') =
    acceptedBytes socket n messages ++
      acceptedBytes socket (n + messages.length) messages' := by
  induction messages generalizing n with
  | nil => rfl
  | cons msg messages ih =>
      have hindex : n + 1 + messages.length = n + (messages.length + 1) := by omega
      simp [acceptedBytes, ih, hindex]

theorem Accepts.of_append (h : Accepts socket n (messages ++ messages')) :
    Accepts socket n messages := by
  induction messages generalizing n with
  | nil => trivial
  | cons msg messages ih => exact ⟨h.1, ih h.2⟩

theorem Accepts.fits (h : Accepts socket n messages) : ∀ msg ∈ messages, Fits msg := by
  induction messages generalizing n with
  | nil => simp
  | cons msg messages ih => exact List.forall_mem_cons.mpr ⟨h.1.1, ih h.2⟩

theorem Accepts.acceptedBytes (h : Accepts socket n messages) :
    acceptedBytes socket n messages = frames messages := by
  induction messages generalizing n with
  | nil => rfl
  | cons msg messages ih =>
      obtain ⟨⟨hfits, hhead, hbody⟩, hrest⟩ := h
      have hsize : size32 msg = msg.length := Nat.mod_eq_of_lt hfits.lt
      rw [Connection.acceptedBytes, ih hrest, hsize, List.take_length,
        List.take_of_length_le (by simpa using hhead), List.take_of_length_le hbody]
      rfl

theorem length_acceptedBytes_le (socket : ℕ → ℕ) (n : ℕ) (messages : List Message) :
    (Connection.acceptedBytes socket n messages).length ≤ (frames messages).length := by
  induction messages generalizing n with
  | nil => rfl
  | cons msg messages ih =>
      have hrest := ih (n + 1)
      have hsize : size32 msg ≤ msg.length := Nat.mod_le ..
      simp only [Connection.acceptedBytes, frames_cons, List.length_append, List.length_take,
        length_netLen, length_frame]
      omega

/-- Where no byte is missing, the socket accepted all. -/
theorem accepts_of_length_le (hfits : ∀ msg ∈ messages, Fits msg)
    (h : (frames messages).length ≤ (Connection.acceptedBytes socket n messages).length) :
    Accepts socket n messages := by
  induction messages generalizing n with
  | nil => trivial
  | cons msg messages ih =>
      have hmsg := hfits msg List.mem_cons_self
      have hsize : size32 msg = msg.length := Nat.mod_eq_of_lt hmsg.lt
      have hrest := length_acceptedBytes_le socket (n + 1) messages
      simp only [Connection.acceptedBytes, frames_cons, List.length_append, List.length_take,
        length_netLen, length_frame, hsize] at h
      refine ⟨⟨hmsg, by omega, by omega⟩, ih (fun m hm => hfits m (List.mem_cons_of_mem _ hm)) ?_⟩
      omega

end Bytes

/-! ## What holds of a connection -/

/-- The bytes that were accepted are those of the messages that were received, and those that
are still to be read. -/
structure Inv (socket : ℕ → ℕ) (c : Connection) (messages : List Message) : Prop where
  split : ∃ sent, messages = sent ++ c.sendQueue ∧ c.calls = 2 * sent.length ∧
    frames c.received ++ (c.rxBuffer ++ c.wire) = acceptedBytes socket 0 sent
  fits : ∀ msg ∈ c.received, Fits msg

/-- The client has taken everything out of its buffer that it can. -/
structure Drained (c : Connection) : Prop where
  tooLong : c.reset = true → TooLong c.rxBuffer
  incomplete : c.reset = false → Incomplete c.rxBuffer

section Invariants

variable {socket : ℕ → ℕ} {c : Connection} {messages : List Message} {event : Event}
  {events : List Event}

/-- What `writeFrame` does for the messages of a queue. -/
theorem foldl_writeFrame (socket : ℕ → ℕ) {n : ℕ} (c : Connection) (hcalls : c.calls = 2 * n)
    (msgs : List Message) : msgs.foldl (writeFrame socket) c =
      { c with
        calls := 2 * (n + msgs.length)
        wire := c.wire ++ acceptedBytes socket n msgs } := by
  induction msgs generalizing c n with
  | nil => simp [acceptedBytes, ← hcalls]
  | cons msg msgs ih =>
      have hnext : (writeFrame socket c msg).calls = 2 * (n + 1) := by
        simp only [writeFrame]
        omega
      have hindex : n + 1 + msgs.length = n + (msgs.length + 1) := by omega
      rw [List.foldl_cons, ih _ hnext]
      simp [writeFrame, acceptedBytes, hcalls, hindex]

theorem inv_start : Inv socket start [] := ⟨⟨[], rfl, rfl, rfl⟩, by simp [start]⟩

theorem Inv.step (h : Inv socket c messages) :
    Inv socket (c.step socket event) (messages ++ event.queued) := by
  obtain ⟨sent, hsplit, hcalls, hbytes⟩ := h.split
  cases event with
  | queueSend msg =>
      refine ⟨⟨sent, ?_, hcalls, hbytes⟩, h.fits⟩
      simp [Connection.step, Event.queued, hsplit]
  | drainSendQueues =>
      have hdrain := foldl_writeFrame socket { c with sendQueue := [] } hcalls c.sendQueue
      rw [Connection.step, drainSendQueues, hdrain]
      refine ⟨⟨messages, by simp [Event.queued], ?_, ?_⟩, h.fits⟩
      · simp [hsplit]
      · rw [hsplit, acceptedBytes_append, ← hbytes]
        simp
  | readyRead size =>
      rw [Connection.step, onReadyRead]
      by_cases hreset : c.reset = true
      · simpa [hreset, Event.queued] using h
      · rw [if_neg hreset]
        refine ⟨⟨sent, by simpa [Event.queued] using hsplit, hcalls, ?_⟩, ?_⟩
        · rw [← hbytes, frames_append, List.append_assoc, ← List.append_assoc (frames _) _ (List.drop ..),
            frames_processBuffer, List.append_assoc, List.take_append_drop]
        · intro msg hmsg
          rcases List.mem_append.mp hmsg with hold | hnew
          · exact h.fits msg hold
          · exact fits_of_mem_processBuffer hnew

theorem Inv.run (h : Inv socket c messages) :
    Inv socket (c.run socket events) (messages ++ queued events) := by
  induction events generalizing c messages with
  | nil => simpa [queued, Connection.run] using h
  | cons event events ih => simpa [queued, Connection.run] using ih h.step

theorem drained_start : Drained start := ⟨by simp [start], by simp [start, Incomplete]⟩

theorem Drained.step (h : Drained c) (hread : ReadFits c event) :
    Drained (c.step socket event) := by
  cases event with
  | queueSend msg => exact ⟨h.tooLong, h.incomplete⟩
  | drainSendQueues =>
      have hkeep : ∀ (msgs : List Message) (c : Connection),
          (msgs.foldl (writeFrame socket) c).reset = c.reset ∧
            (msgs.foldl (writeFrame socket) c).rxBuffer = c.rxBuffer := by
        intro msgs
        induction msgs with
        | nil => simp
        | cons msg msgs ih => exact fun c => ih _
      obtain ⟨hreset, hbuffer⟩ := hkeep c.sendQueue { c with sendQueue := [] }
      rw [Connection.step, drainSendQueues]
      exact ⟨by simpa [hreset, hbuffer] using h.tooLong, by simpa [hreset, hbuffer] using h.incomplete⟩
  | readyRead size =>
      rw [Connection.step, onReadyRead]
      by_cases hreset : c.reset = true
      · simpa [hreset] using h
      · rw [if_neg hreset]
        obtain ⟨htooLong, hincomplete⟩ := rest_processBuffer le_rfl hread
        exact ⟨htooLong, hincomplete⟩

/-- Where the socket accepted all, the client goes on with what it cannot yet take. -/
theorem Inv.received (h : Inv socket c messages) (hc : Drained c)
    (haccepts : Accepts socket 0 messages) :
    c.reset = false ∧ c.received <+: messages ∧
      (c.sendQueue = [] → c.wire = [] → c.received = messages) := by
  obtain ⟨sent, hsplit, -, hbytes⟩ := h.split
  subst hsplit
  have hsent := haccepts.of_append
  rw [hsent.acceptedBytes] at hbytes
  obtain ⟨last, rfl, hlast⟩ := exists_of_frames_append h.fits hsent.fits hbytes
  have hfits : ∀ msg ∈ last, Fits msg := fun msg hmsg => hsent.fits msg (by simp [hmsg])
  -- what is left starts with a whole frame of the stream or is empty
  have hhead : 4 ≤ c.rxBuffer.length → headLen c.rxBuffer ≤ maxFrame := by
    intro h4
    rw [← headLen_append h4 c.wire, hlast]
    cases last with
    | nil =>
        have hempty : c.rxBuffer = [] := (List.append_eq_nil_iff.mp hlast).1
        simp [hempty] at h4
    | cons msg last =>
        rw [frames_cons, headLen_frame (hfits msg List.mem_cons_self)]
        exact hfits msg List.mem_cons_self
  have hreset : c.reset = false := by
    by_contra hreset
    obtain ⟨h4, hlong⟩ := hc.tooLong (by simpa using hreset)
    exact absurd (hhead h4) (Nat.not_le_of_lt hlong)
  refine ⟨hreset, ⟨last ++ c.sendQueue, by simp⟩, fun hqueue hwire => ?_⟩
  cases last with
  | nil => simp [hqueue]
  | cons msg last =>
      rw [hwire, List.append_nil, frames_cons] at hlast
      have h4 : 4 ≤ c.rxBuffer.length := by
        rw [hlast, List.length_append, length_frame]
        omega
      have hless := (hc.incomplete hreset h4).2
      rw [hlast, headLen_frame (hfits msg List.mem_cons_self), List.length_append,
        length_frame] at hless
      omega

/-- Where everything was received, the socket accepted all. -/
theorem Inv.accepts (h : Inv socket c messages) (hreceived : c.received = messages) :
    Accepts socket 0 messages := by
  obtain ⟨sent, hsplit, -, hbytes⟩ := h.split
  have hlength := congrArg List.length hbytes
  have hle := length_acceptedBytes_le socket 0 sent
  have hframes : (frames messages).length = (frames sent).length + (frames c.sendQueue).length := by
    rw [hsplit, frames_append, List.length_append]
  rw [List.length_append, hreceived] at hlength
  have hqueue : c.sendQueue = [] := by
    cases hq : c.sendQueue with
    | nil => rfl
    | cons msg rest =>
        rw [hq, frames_cons, List.length_append, length_frame] at hframes
        omega
  rw [hqueue, List.append_nil] at hsplit
  subst hsplit
  exact accepts_of_length_le (hreceived ▸ h.fits) (by omega)

end Invariants

section Main

variable (socket : ℕ → ℕ) (events : List Event)

/-- Where the socket accepts every frame whole and no message is too long, the client gets the
messages that were queued, in their order, without giving the connection up; it does not get all
of them otherwise. -/
theorem received_of_accepts :
    (Accepts socket 0 (queued events) → Along (step socket) ReadFits start events →
      (start.run socket events).reset = false ∧
        (start.run socket events).received <+: queued events ∧
        ((start.run socket events).sendQueue = [] → (start.run socket events).wire = [] →
          (start.run socket events).received = queued events)) ∧
    ((start.run socket events).received = queued events → Accepts socket 0 (queued events)) := by
  have hinv : Inv socket (start.run socket events) (queued events) := inv_start.run
  refine ⟨fun haccepts hreads => ?_, hinv.accepts⟩
  exact hinv.received (hreads.foldl (fun _ _ => Drained.step) drained_start) haccepts

end Main

/-- A socket that accepts three bytes at a time cuts the length off. -/
theorem received_ne_of_short_send :
    let c := start.run (fun _ => 3) [.queueSend [123, 125], .drainSendQueues, .readyRead 100]
    c.sendQueue = [] ∧ c.wire = [] ∧ c.received ≠ [[123, 125]] := by
  decide

end Connection

end Kungfu.Api
