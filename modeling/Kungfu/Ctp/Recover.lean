import Kungfu.Ctp.Trader
import Mathlib.Data.List.Induction

/-!
# What a restarted trader recovers

A new process reads the day's frames of all channels that the account wrote, and keeps of
each order the frame that it reads last, with the channel it lies in.  Orders that were
never acknowledged, and order inputs without an order, are declared lost.  From what
remains the trader restores which CTP order ref belongs to which order.

The frames of a channel are read in the order in which they were written; how channels
interleave is up to the times of their frames, and in which order the kept orders are
visited is up to a hash table.  Both come in as schedules, and any schedule will do.
-/

namespace Kungfu.Ctp

open Longfist

variable {δ : Type}

/-! ## What was published -/

/-- A strategy's order: its id, its parent, and the strategy. -/
structure Owner where
  orderId : UInt64
  parentId : UInt64
  source : UInt32
  deriving DecidableEq

def Owner.ofInput (input : OrderInput δ) (source : UInt32) : Owner :=
  ⟨input.orderId, input.parentId, source⟩

/-- A record with the channels it was written to.  `subject` is the strategy's order that it
is about, if any; the trader does not know it, and nothing it does depends on it. -/
structure Published (δ : Type) where
  record : Record δ
  subject : Option Owner
  dests : List UInt32

/-- The frames of the account's channels, in the order in which they were written. -/
def frames (published : List (Published δ)) : List (UInt32 × Published δ) :=
  published.flatMap fun e => e.dests.map fun dest => (dest, e)

theorem mem_frames {published : List (Published δ)} {frame : UInt32 × Published δ} :
    frame ∈ frames published ↔ frame.2 ∈ published ∧ frame.1 ∈ frame.2.dests := by
  obtain ⟨dest, e⟩ := frame
  simp only [frames, List.mem_flatMap, List.mem_map, Prod.mk.injEq]
  constructor
  · rintro ⟨e', he', dest', hdest, rfl, rfl⟩
    exact ⟨he', hdest⟩
  · rintro ⟨he, hdest⟩
    exact ⟨e, he, dest, hdest, rfl, rfl⟩

/-- The frames, read from the channels in turn as `schedule` says. -/
def readBy : List UInt32 → List (UInt32 × Published δ) → List (UInt32 × Published δ)
  | [], frames => frames
  | dest :: schedule, frames =>
      match frames.find? (·.1 = dest) with
      | none => readBy schedule frames
      | some frame => frame :: readBy schedule (frames.eraseP (·.1 = dest))

theorem mem_of_mem_readBy {schedule : List UInt32} {frames : List (UInt32 × Published δ)}
    {frame : UInt32 × Published δ} (h : frame ∈ readBy schedule frames) : frame ∈ frames := by
  induction schedule generalizing frames with
  | nil => exact h
  | cons dest schedule ih =>
    unfold readBy at h
    split at h
    · exact ih h
    · rename_i first hfirst
      rcases List.mem_cons.mp h with rfl | hrest
      · exact List.mem_of_find?_eq_some hfirst
      · exact List.mem_of_mem_eraseP (ih hrest)

/-! ## Recovery -/

/-- An order in `orders_`, with the channel of its frame. -/
structure Recovered (δ : Type) where
  order : Order δ
  dest : UInt32
  subject : Option Owner

/-- A frame that is read replaces what `orders_` has of its order. -/
def keepOrder (orders : UInt64 → Option (Recovered δ)) (frame : UInt32 × Published δ) :
    UInt64 → Option (Recovered δ) :=
  match frame.2.record with
  | .order o => Function.update orders o.orderId (some ⟨o, frame.1, frame.2.subject⟩)
  | .trade _ => orders

/-- The `orders_` that `deal_write_frame` rebuilds. -/
def recoverOrders (read : List (UInt32 × Published δ)) : UInt64 → Option (Recovered δ) :=
  read.foldl keepOrder fun _ => none

/-- The order in which `orders_` is visited: the ids in `visited` first. -/
def visitOrder (visited : List UInt64) (read : List (UInt32 × Published δ)) : List UInt64 :=
  (visited ++ read.map (·.2.record.orderId)).eraseDups

/-- The orders of `orders_` that are neither final nor have an id of CTP's are lost. -/
def lostOrder (writers : List UInt32) (r : Recovered δ) : Option (Published δ) :=
  if ¬ isFinalStatus r.order.status ∧ r.order.externalOrderId = "" ∧ r.dest ∈ writers then
    some ⟨.order { r.order with status := .Lost }, r.subject, [r.dest]⟩
  else none

/-- `deal_read_frame`: an order input without an order is lost. -/
def lostInput (orders : UInt64 → Option (Recovered δ)) (writers : List UInt32)
    (input : OrderInput δ × UInt32) : Option (Published δ) :=
  if (orders input.1.orderId).isNone ∧ input.2 ∈ writers then
    some ⟨.order { orderFromInput input.1 with status := .Lost },
      some (Owner.ofInput input.1 input.2), [input.2]⟩
  else none

/-- `Trader::recover`: what a new process publishes about lost orders. -/
def recover (visited : List UInt64) (writers : List UInt32) (inputs : List (OrderInput δ × UInt32))
    (read : List (UInt32 × Published δ)) : List (Published δ) :=
  let orders := recoverOrders read
  ((visitOrder visited read).filterMap orders).filterMap (lostOrder writers) ++
    inputs.filterMap (lostInput orders writers)

namespace Trader

/-- A process that has just started, with the writers that the master had it open. -/
def start (writers : List UInt32) : Trader δ where
  api := true
  loggedIn := false
  ready := false
  frontId := 0
  sessionId := 0
  orderRefCounter := 0
  orderIdToRefInfo := fun _ => none
  refToOrderId := fun _ => none
  queryInFlight := false
  tasks := []
  pending := []
  writers := PUBLIC :: writers
  hasPublic := List.mem_cons_self

/-- What `on_recover` does about an order of `orders_`. -/
def recoverMapping (t : Trader δ) (r : Recovered δ) : Trader δ :=
  let orderRef := r.order.externalOrderId
  if orderRef = "" then t
  else if (t.refToOrderId orderRef).isSome then t
  else
    { t with
      refToOrderId := Function.update t.refToOrderId orderRef (some r.order.orderId)
      orderIdToRefInfo := Function.update t.orderIdToRefInfo r.order.orderId
        (some ⟨orderRef, r.order.instrumentId, r.order.exchangeId, r.dest⟩) }

/-- `on_recover`. -/
def onRecover (visited : List UInt64) (read : List (UInt32 × Published δ)) (t : Trader δ) :
    Trader δ :=
  ((visitOrder visited read).filterMap (recoverOrders read)).foldl recoverMapping t

end Trader

/-! ## What recovery goes by -/

/-- What `orders_` has of an order is in a frame that was read. -/
theorem exists_of_recoverOrders {read : List (UInt32 × Published δ)} {id : UInt64}
    {r : Recovered δ} (h : recoverOrders read id = some r) :
    r.order.orderId = id ∧
      ∃ frame ∈ read, frame.2.record = .order r.order ∧ frame.2.subject = r.subject ∧
        frame.1 = r.dest := by
  induction read using List.reverseRecOn with
  | nil => cases h
  | append_singleton read frame ih =>
    have hkept : recoverOrders read id = some r → r.order.orderId = id ∧
        ∃ frame' ∈ read ++ [frame], frame'.2.record = .order r.order ∧
          frame'.2.subject = r.subject ∧ frame'.1 = r.dest := by
      intro hread
      obtain ⟨hid, frame', hmem, hframe⟩ := ih hread
      exact ⟨hid, frame', List.mem_append_left _ hmem, hframe⟩
    rw [recoverOrders, List.foldl_append, List.foldl_cons, List.foldl_nil, ← recoverOrders,
      keepOrder] at h
    cases hrecord : frame.2.record with
    | order o =>
      simp only [hrecord] at h
      rcases eq_or_ne id o.orderId with rfl | hne
      · rw [Function.update_self] at h
        obtain rfl := Option.some.inj h
        exact ⟨rfl, frame, by simp, hrecord, rfl, rfl⟩
      · exact hkept (by rwa [Function.update_of_ne hne] at h)
    | trade _ => exact hkept (by simpa only [hrecord] using h)

/-- The same with what was published. -/
theorem exists_published_of_recovered {published : List (Published δ)} {schedule : List UInt32}
    {visited : List UInt64} {r : Recovered δ}
    (h : r ∈ (visitOrder visited (readBy schedule (frames published))).filterMap
      (recoverOrders (readBy schedule (frames published)))) :
    ∃ e ∈ published, e.record = .order r.order ∧ e.subject = r.subject := by
  obtain ⟨id, -, hid⟩ := List.mem_filterMap.mp h
  obtain ⟨-, frame, hframe, hrecord, hsubject, -⟩ := exists_of_recoverOrders hid
  exact ⟨frame.2, (mem_frames.mp (mem_of_mem_readBy hframe)).1, hrecord, hsubject⟩

/-- An order that recovery reports lost repeats one that was published, or it is the order
of an input. -/
theorem lost_of_mem_recover {published : List (Published δ)} {schedule writers : List UInt32}
    {visited : List UInt64} {inputs : List (OrderInput δ × UInt32)} {e : Published δ}
    (h : e ∈ recover visited writers inputs (readBy schedule (frames published))) :
    (∃ o, ∃ e' ∈ published, e'.record = .order o ∧ e'.subject = e.subject ∧
        ¬ isFinalStatus o.status ∧ o.externalOrderId = "" ∧
        e.record = .order { o with status := .Lost }) ∨
      ∃ input source, e.record = .order { orderFromInput input with status := .Lost } ∧
        e.subject = some (Owner.ofInput input source) ∧ e.dests = [source] := by
  rcases List.mem_append.mp h with hlost | hlost
  · left
    obtain ⟨r, hr, hlost⟩ := List.mem_filterMap.mp hlost
    obtain ⟨e', he', hrecord, hsubject⟩ := exists_published_of_recovered hr
    unfold lostOrder at hlost
    split at hlost
    · rename_i hopen
      obtain rfl := Option.some.inj hlost
      exact ⟨r.order, e', he', hrecord, hsubject, hopen.1, hopen.2.1, rfl⟩
    · cases hlost
  · right
    obtain ⟨⟨input, source⟩, -, hlost⟩ := List.mem_filterMap.mp hlost
    unfold lostInput at hlost
    split at hlost
    · obtain rfl := Option.some.inj hlost
      exact ⟨input, source, rfl, rfl, rfl⟩
    · cases hlost

end Kungfu.Ctp
