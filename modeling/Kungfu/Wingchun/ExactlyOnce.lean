import Kungfu.Ctp.Trader
import Kungfu.Log.Feed
import Kungfu.Wingchun.Bookkeeper

/-!
# How often an execution reaches the book of its account

The trader writes an order or a trade to the channel of the strategy it belongs to and to
PUBLIC.  The ledger reads PUBLIC of every account, and it joins each channel between an
account and a strategy that the master announces.  Its bookkeeper applies what it reads,
channel by channel.

An execution is either applied to the book of its account or it lies before the ledger in a
joined channel.  The two together occur once as long as every execution is published anew
and into one channel that the ledger reads, and as long as nothing is passed over or read
again when the ledger joins and leaves channels.
-/

namespace Kungfu.Wingchun

open Longfist Ctp

variable {δ α : Type}

/-- An order or a trade in a channel of the account. -/
structure Event (δ : Type) where
  genTime : Int64
  record : Record δ

/-- `Channel`: what the master announces. -/
structure Channel where
  sourceId : UInt32
  destId : UInt32

/-- The account, the ledger and the cache service, by location uid, with what is known about
instruments and accounting. -/
structure Setup (δ α : Type) where
  home : UInt32
  ledgerHome : UInt32
  cachedHome : UInt32
  markets : Markets
  accounting : Accounting δ α

/-- The trader, the account's channels with the positions of the ledger, and the ledger's
books.  `published` and `dispatched` record the run so far. -/
structure System (δ α : Type) where
  trader : Trader δ
  feed : Feed UInt32 (Event δ)
  books : BookMap δ α
  published : List Execution
  dispatched : List (UInt32 × Event δ)

/-- A step of the trader or of the ledger. -/
inductive Step (δ : Type)
  /-- The CTP worker thread delivers a callback. -/
  | callback (task : Ctp.Task δ)
  /-- The trader's timer starts a round of tasks. -/
  | drainTasks
  /-- The trader performs the next task. -/
  | task (now : Int64)
  /-- The trader handles an order input; `ret` is CTP's answer. -/
  | orderInput (now : Int64) (input : OrderInput δ) (source : UInt32) (ret : Int32)
  /-- The master has the trader open a writer. -/
  | writeTo (dest : UInt32)
  /-- The master has the ledger read a channel: PUBLIC, SYNC or its own. -/
  | readFrom (dest : UInt32) (fromTime : Int64)
  /-- The ledger learns of a channel. -/
  | inspectChannel (triggerTime : Int64) (channel : Channel)
  /-- The ledger drops the account when it is deregistered. -/
  | onDeregister
  /-- The ledger handles the next event of a channel. -/
  | dispatch (dest : UInt32)

/-- A system in which nothing has been published or read so far. -/
def System.start (trader : Trader δ) (feed : Feed UInt32 (Event δ)) (books : BookMap δ α) :
    System δ α :=
  ⟨trader, feed, books, [], []⟩

namespace System

variable (S : Setup δ α)

/-- `write_order` and `write_trade`. -/
def publish (now : Int64) (p : Publication δ) (st : System δ α) : System δ α :=
  { st with
    feed := st.feed.appendAll (st.trader.targets p.source) ⟨now, p.record⟩
    published := p.record.execution.toList ++ st.published }

/-- The trader acts and publishes what comes of it. -/
def act (now : Int64) (outcome : Trader δ × Option (Publication δ)) (st : System δ α) :
    System δ α :=
  let st := match outcome.2 with
    | none => st
    | some p => st.publish now p
  { st with trader := outcome.1 }

/-- `reader::join` on a channel of the account; events up to `fromTime` are passed over. -/
def join (dest : UInt32) (fromTime : Int64) (st : System δ α) : System δ α :=
  { st with feed := st.feed.join dest fun event => event.genTime ≤ fromTime }

/-- The channel of the account that `Ledger::inspect_channel` joins, if any. -/
def inspected (channel : Channel) : Option UInt32 :=
  if channel.sourceId = S.cachedHome ∨ channel.destId = S.cachedHome then none
  else if channel.sourceId ≠ S.ledgerHome ∧ channel.destId ≠ S.ledgerHome ∧
      channel.sourceId = S.home then
    some channel.destId
  else none

/-- The ledger handles an event that it read from `dest`. -/
def handle (dest : UInt32) (event : Event δ) (st : System δ α) : System δ α :=
  { st with
    books := S.accounting.updateBook event.genTime S.home dest event.record st.books
    dispatched := st.dispatched ++ [(dest, event)] }

def step (st : System δ α) : Step δ → System δ α
  | .callback task => { st with trader := st.trader.enqueue task }
  | .drainTasks => { st with trader := st.trader.drainTasks }
  | .task now => st.act now (st.trader.nextTask S.markets)
  | .orderInput now input source ret => st.act now (st.trader.onOrderInput input source ret)
  | .writeTo dest => { st with trader := st.trader.onWriteTo dest }
  | .readFrom dest fromTime => st.join dest fromTime
  | .inspectChannel triggerTime channel =>
      match inspected S channel with
      | none => st
      | some dest => st.join dest triggerTime
  | .onDeregister => { st with feed := st.feed.leave }
  | .dispatch dest =>
      match st.feed.next dest with
      | none => st
      | some (event, feed) => { st with feed := feed }.handle S dest event

/-- Steps one after another. -/
def run (st : System δ α) (steps : List (Step δ)) : System δ α := steps.foldl (step S) st

end System

/-! ## Occurrences of an execution -/

/-- The applications of an event to the book of `home`, by `Bookkeeper::update_book`. -/
def applications (home : UInt32) (p : UInt32 × Event δ) : List (Event δ) :=
  if p.1 ≠ PUBLIC ∧ p.1 = home then [p.2, p.2] else [p.2]

/-- The executions that a list of events applies to the book of `home`. -/
def executions (home : UInt32) (events : List (UInt32 × Event δ)) : List Execution :=
  (events.flatMap (applications home)).filterMap fun event => event.record.execution

section Executions

variable (home : UInt32) (events events' : List (UInt32 × Event δ))

@[simp] theorem executions_nil : executions home ([] : List (UInt32 × Event δ)) = [] := rfl

@[simp] theorem executions_append :
    executions home (events ++ events') = executions home events ++ executions home events' := by
  simp [executions]

variable {events events'}

theorem executions_perm (h : events.Perm events') :
    (executions home events).Perm (executions home events') :=
  (h.flatMap_right _).filterMap _

/-- An event in a channel that does not lead to `home` is applied once. -/
theorem executions_singleton {dest : UInt32} (hdest : dest = PUBLIC ∨ dest ≠ home)
    (event : Event δ) : executions home [(dest, event)] = event.record.execution.toList := by
  have hnot : ¬ (dest ≠ PUBLIC ∧ dest = home) := by
    rintro ⟨hpub, hhome⟩
    exact hdest.elim hpub fun hne => hne hhome
  cases h : event.record.execution <;> simp [executions, applications, hnot, h]

theorem executions_eq_nil (h : ∀ p ∈ events, p.2.record.execution = none) :
    executions home events = [] := by
  refine List.filterMap_eq_nil_iff.mpr fun event hevent => ?_
  obtain ⟨p, hp, hmem⟩ := List.mem_flatMap.mp hevent
  rw [applications] at hmem
  have heq : event = p.2 := by
    split at hmem <;> simpa using hmem
  rw [heq]
  exact h p hp

end Executions

namespace System

variable (S : Setup δ α) (st : System δ α)

/-- The channels that the ledger reads among those a record for `source` is written to. -/
def reached (source : UInt32) : List UInt32 :=
  (st.trader.targets source).filter (· ∈ st.feed.joined)

/-- What the ledger has handled and what it has before it. -/
def events : List (UInt32 × Event δ) := st.dispatched ++ st.feed.unread

/-- Every published execution occurs once: it was applied, or it lies before the ledger. -/
def Once : Prop := ∀ e ∈ st.published, (executions S.home st.events).count e = 1

end System

/-! ## Safe steps -/

section Safe

variable (S : Setup δ α) (st : System δ α)

/-- An execution is published anew, and into one channel that the ledger reads. -/
def SafePublication (p : Publication δ) : Prop :=
  ∀ e ∈ p.record.execution, e ∉ executions S.home st.events ∧
    (st.reached p.source).length = 1 ∧ ∀ dest ∈ st.reached p.source, dest = PUBLIC ∨ dest ≠ S.home

/-- A channel that is joined anew has no published execution behind the join's time. -/
def SafeJoin (dest : UInt32) (fromTime : Int64) : Prop :=
  dest ∉ st.feed.joined → ∀ e ∈ st.published,
    e ∉ executions S.home
      (((st.feed.log dest).dropWhile fun event => event.genTime ≤ fromTime).map (dest, ·))

/-- The condition under which a step keeps the occurrences of executions at one. -/
def Safe : Step δ → Prop
  | .task _ => ∀ p ∈ (st.trader.nextTask S.markets).2, SafePublication S st p
  | .orderInput _ input source ret =>
      ∀ p ∈ (st.trader.onOrderInput input source ret).2, SafePublication S st p
  | .readFrom dest fromTime => SafeJoin S st dest fromTime
  | .inspectChannel triggerTime channel =>
      ∀ dest ∈ System.inspected S channel, SafeJoin S st dest triggerTime
  | .onDeregister => ∀ e ∈ st.published, e ∉ executions S.home st.feed.unread
  | .callback _ | .drainTasks | .writeTo _ | .dispatch _ => True

/-- Every step of a run is safe. -/
def SafeRun (st : System δ α) : List (Step δ) → Prop
  | [] => True
  | s :: steps => Safe S st s ∧ SafeRun (st.step S s) steps

-- the instances go through the members, not through all addresses
instance (p : Publication δ) : Decidable (SafePublication S st p) :=
  have : Decidable (∀ dest ∈ st.reached p.source, dest = PUBLIC ∨ dest ≠ S.home) :=
    List.decidableBAll _ _
  inferInstanceAs (Decidable (∀ e ∈ p.record.execution, _ ∧ _ ∧ _))

instance (dest : UInt32) (fromTime : Int64) : Decidable (SafeJoin S st dest fromTime) :=
  inferInstanceAs (Decidable (_ → _))

instance : (s : Step δ) → Decidable (Safe S st s)
  | .task _ => inferInstanceAs (Decidable (∀ p ∈ _, SafePublication S st p))
  | .orderInput _ _ _ _ => inferInstanceAs (Decidable (∀ p ∈ _, SafePublication S st p))
  | .readFrom dest fromTime => inferInstanceAs (Decidable (SafeJoin S st dest fromTime))
  | .inspectChannel triggerTime channel =>
      Option.decidableForallMem (p := fun dest => SafeJoin S st dest triggerTime)
        (o := System.inspected S channel)
  | .onDeregister => inferInstanceAs (Decidable (∀ e ∈ st.published, _))
  | .callback _ | .drainTasks | .writeTo _ | .dispatch _ => inferInstanceAs (Decidable True)

instance decidableSafeRun (st : System δ α) : (steps : List (Step δ)) →
    Decidable (SafeRun S st steps)
  | [] => inferInstanceAs (Decidable True)
  | s :: steps =>
      have := decidableSafeRun (st.step S s) steps
      inferInstanceAs (Decidable (Safe S st s ∧ SafeRun S (st.step S s) steps))

end Safe

namespace System

variable {S : Setup δ α} {st : System δ α}

/-- The occurrences depend on the events up to order only. -/
theorem Once.of_perm (H : Once S st) {st' : System δ α} (hpub : st'.published = st.published)
    (hperm : st'.events.Perm st.events) : Once S st' := by
  intro e he
  rw [(executions_perm S.home hperm).count_eq e]
  exact H e (hpub ▸ he)

theorem Once.publish (H : Once S st) (now : Int64) {p : Publication δ}
    (hsafe : SafePublication S st p) : Once S (st.publish now p) := by
  have hperm : (st.publish now p).events.Perm
      ((st.reached p.source).map (·, ⟨now, p.record⟩) ++ st.events) := by
    refine ((st.feed.unread_appendAll _ _).append_left st.dispatched).trans ?_
    rw [events, ← List.append_assoc, ← List.append_assoc]
    exact List.perm_append_comm.append_right _
  intro e he
  rw [(executions_perm S.home hperm).count_eq e, executions_append, List.count_append]
  cases hexec : p.record.execution with
  | none =>
      have hnil : executions S.home
          ((st.reached p.source).map (·, (⟨now, p.record⟩ : Event δ))) = [] := by
        refine executions_eq_nil S.home fun q hq => ?_
        obtain ⟨dest, -, rfl⟩ := List.mem_map.mp hq
        exact hexec
      rw [hnil, List.count_nil, Nat.zero_add]
      exact H e (by simpa [System.publish, hexec] using he)
  | some e' =>
      obtain ⟨hnew, hone, hdest⟩ := hsafe e' hexec
      obtain ⟨dest, hreached⟩ := List.length_eq_one_iff.mp hone
      have hdest := hdest dest (by rw [hreached]; exact List.mem_singleton_self dest)
      rw [hreached, List.map_singleton, executions_singleton S.home hdest]
      change (p.record.execution.toList).count e + _ = 1
      rw [hexec, Option.toList_some]
      by_cases he' : e = e'
      · subst he'
        rw [List.count_singleton_self, List.count_eq_zero_of_not_mem hnew]
      · have hold : e ∈ st.published := by
          simpa [System.publish, hexec, he'] using he
        rw [List.count_eq_zero_of_not_mem (by simpa using he'), Nat.zero_add]
        exact H e hold

theorem Once.act (H : Once S st) (now : Int64) {outcome : Trader δ × Option (Publication δ)}
    (hsafe : ∀ p ∈ outcome.2, SafePublication S st p) : Once S (st.act now outcome) := by
  obtain ⟨trader, publication⟩ := outcome
  cases publication with
  | none => exact H
  | some p => exact H.publish now (hsafe p rfl)

theorem Once.join (H : Once S st) {dest : UInt32} {fromTime : Int64}
    (hsafe : SafeJoin S st dest fromTime) : Once S (st.join dest fromTime) := by
  intro e he
  have hunread := st.feed.unread_join dest fun event => event.genTime ≤ fromTime
  have hold := H e he
  by_cases hjoined : dest ∈ st.feed.joined
  · rw [if_pos hjoined] at hunread
    rwa [events, System.join, hunread]
  · rw [if_neg hjoined] at hunread
    rw [events, System.join, hunread, ← List.append_assoc, executions_append, List.count_append,
      List.count_eq_zero_of_not_mem (hsafe hjoined e he)]
    exact hold

theorem Once.leave (H : Once S st)
    (hsafe : ∀ e ∈ st.published, e ∉ executions S.home st.feed.unread) :
    Once S { st with feed := st.feed.leave } := by
  intro e he
  have hold := H e he
  rw [events, executions_append, List.count_append,
    List.count_eq_zero_of_not_mem (hsafe e he)] at hold
  rwa [events, Feed.unread_leave, List.append_nil]

theorem Once.dispatch (H : Once S st) (dest : UInt32) : Once S (st.step S (.dispatch dest)) := by
  rw [System.step]
  cases hnext : st.feed.next dest with
  | none => exact H
  | some r =>
      obtain ⟨event, feed⟩ := r
      refine H.of_perm rfl ?_
      change (st.dispatched ++ [(dest, event)] ++ feed.unread).Perm _
      rw [List.append_assoc]
      exact (Feed.unread_next hnext).symm.append_left _

/-- A safe step keeps every published execution at one occurrence. -/
theorem Once.step (H : Once S st) {s : Step δ} (hsafe : Safe S st s) : Once S (st.step S s) := by
  cases s with
  | callback task => exact H
  | drainTasks => exact H
  | task now => exact H.act now hsafe
  | orderInput now input source ret => exact H.act now hsafe
  | writeTo dest => exact H
  | readFrom dest fromTime => exact H.join hsafe
  | inspectChannel triggerTime channel =>
      rw [System.step]
      cases hinspected : inspected S channel with
      | none => exact H
      | some dest => exact H.join (hsafe dest hinspected)
  | onDeregister => exact H.leave hsafe
  | dispatch dest => exact H.dispatch dest

theorem Once.run (H : Once S st) {steps : List (Step δ)} (hsafe : SafeRun S st steps) :
    Once S (st.run S steps) := by
  induction steps generalizing st with
  | nil => exact H
  | cons s steps ih => exact ih (H.step hsafe.1) hsafe.2

/-! ## The book of the account -/

/-- The effects of events on a book, one after another. -/
def effects (S : Setup δ α) (events : List (Event δ)) (book : Book δ α) : Book δ α :=
  events.foldl (fun book event => S.accounting.effect event.genTime event.record book) book

/-- A step handles some events, and the account's book changes by their applications. -/
theorem step_book (st : System δ α) (s : Step δ) :
    ∃ handled, (st.step S s).dispatched = st.dispatched ++ handled ∧
      S.accounting.getBook (st.step S s).books S.home =
        effects S (handled.flatMap (applications S.home))
          (S.accounting.getBook st.books S.home) := by
  cases s with
  | dispatch dest =>
      rw [System.step]
      cases hnext : st.feed.next dest with
      | none => exact ⟨[], (List.append_nil _).symm, rfl⟩
      | some r =>
          refine ⟨[(dest, r.1)], rfl, ?_⟩
          refine (S.accounting.getBook_updateBook_source _ _ _ _ _).trans ?_
          rw [List.flatMap_singleton, applications]
          by_cases hdest : dest ≠ PUBLIC ∧ dest = S.home
          · rw [if_pos hdest, if_pos hdest]
            rfl
          · rw [if_neg hdest, if_neg hdest]
            rfl
  | inspectChannel triggerTime channel =>
      refine ⟨[], ?_⟩
      rw [System.step]
      cases inspected S channel with
      | none => exact ⟨(List.append_nil _).symm, rfl⟩
      | some dest => exact ⟨(List.append_nil _).symm, rfl⟩
  | task now =>
      refine ⟨[], ?_⟩
      rw [System.step, System.act]
      cases (st.trader.nextTask S.markets).2 with
      | none => exact ⟨(List.append_nil _).symm, rfl⟩
      | some p => exact ⟨(List.append_nil _).symm, rfl⟩
  | orderInput now input source ret =>
      refine ⟨[], ?_⟩
      rw [System.step, System.act]
      cases (st.trader.onOrderInput input source ret).2 with
      | none => exact ⟨(List.append_nil _).symm, rfl⟩
      | some p => exact ⟨(List.append_nil _).symm, rfl⟩
  | callback task => exact ⟨[], (List.append_nil _).symm, rfl⟩
  | drainTasks => exact ⟨[], (List.append_nil _).symm, rfl⟩
  | writeTo dest => exact ⟨[], (List.append_nil _).symm, rfl⟩
  | readFrom dest fromTime => exact ⟨[], (List.append_nil _).symm, rfl⟩
  | onDeregister => exact ⟨[], (List.append_nil _).symm, rfl⟩

theorem run_book (st : System δ α) (steps : List (Step δ)) :
    ∃ handled, (st.run S steps).dispatched = st.dispatched ++ handled ∧
      S.accounting.getBook (st.run S steps).books S.home =
        effects S (handled.flatMap (applications S.home))
          (S.accounting.getBook st.books S.home) := by
  induction steps generalizing st with
  | nil => exact ⟨[], (List.append_nil _).symm, rfl⟩
  | cons s steps ih =>
      obtain ⟨handled, hdispatched, hbook⟩ := step_book (S := S) st s
      obtain ⟨handled', hdispatched', hbook'⟩ := ih (st.step S s)
      refine ⟨handled ++ handled', ?_, ?_⟩
      · rw [← List.append_assoc, ← hdispatched]
        exact hdispatched'
      · rw [List.flatMap_append, effects, List.foldl_append]
        rw [effects] at hbook
        rw [← hbook]
        exact hbook'

end System

/-- In a safe run the account's book changes by the effects of the events that the ledger
handled, and among them every published execution occurs at most once, and once as soon as
it does not lie before the ledger any more. -/
theorem executions_applied_once (S : Setup δ α) (trader : Trader δ) (feed : Feed UInt32 (Event δ))
    (books : BookMap δ α) {steps : List (Step δ)}
    (hsafe : SafeRun S (System.start trader feed books) steps) :
    let st := (System.start trader feed books).run S steps
    S.accounting.getBook st.books S.home =
        System.effects S (st.dispatched.flatMap (applications S.home))
          (S.accounting.getBook books S.home) ∧
      ∀ e ∈ st.published, (executions S.home st.dispatched).count e ≤ 1 ∧
        (e ∉ executions S.home st.feed.unread → (executions S.home st.dispatched).count e = 1) := by
  intro st
  have H₀ : System.Once S (System.start trader feed books) := fun e he => absurd he List.not_mem_nil
  have H : System.Once S st := H₀.run hsafe
  refine ⟨?_, fun e he => ?_⟩
  · obtain ⟨handled, hdispatched, hbook⟩ := System.run_book (S := S) _ steps
    rw [hdispatched]
    exact hbook
  · have hone := H e he
    rw [System.events, executions_append, List.count_append] at hone
    refine ⟨by omega, fun hunread => ?_⟩
    rwa [List.count_eq_zero_of_not_mem hunread] at hone

/-! ## Two runs -/

/-- Books that keep the volume traded, as a position does for trades that open it. -/
def volumes : Accounting Unit ℤ :=
  let idle : AccountingMethod Unit ℤ := ⟨fun book _ => book, fun book _ => book⟩
  { stock := idle
    bond := idle
    future := ⟨fun book _ => book, fun book t => { book with state := book.state + t.volume.toInt }⟩
    repo := idle
    crypto := idle
    getPositionFor := fun _ volume => volume
    touchPosition := fun _ _ volume => volume
    update := fun _ volume => volume
    makeBook := fun _ => ⟨0, fun _ => none, fun _ => none⟩ }

/-- An account 10, read by the ledger 20. -/
def exampleSetup : Setup Unit ℤ where
  home := 10
  ledgerHome := 20
  cachedHome := 30
  markets := ⟨fun _ _ => .Future, fun _ => ""⟩
  accounting := volumes

/-- The trader is logged in and has a writer to a strategy 77; nothing was written yet. -/
def exampleStart : System Unit ℤ :=
  System.start
    { api := true
      loggedIn := true
      ready := true
      frontId := 1
      sessionId := 1
      orderRefCounter := 0
      orderIdToRefInfo := fun _ => none
      refToOrderId := fun _ => none
      queryInFlight := false
      tasks := []
      pending := []
      writers := [PUBLIC, 77]
      hasPublic := List.mem_cons_self }
    (Feed.unjoined fun _ => []) fun _ => none

/-- The strategy's order is inserted and trades a volume of 3; then the ledger reads. -/
def exampleSteps (reads : List UInt32) : List (Step Unit) :=
  [.orderInput 50 ⟨5, 0, "au2610", "SHFE", .Future, 500, 500, 3, .Buy, .Limit, ()⟩ 77 0,
    .callback (.onRtnTrade ⟨"1", "8", "9", "au2610", "SHFE", '0', 3, ()⟩),
    .drainTasks, .task 60] ++ reads.map .dispatch

/-- The ledger reads PUBLIC only. -/
theorem executions_applied_once_public :
    let st := exampleStart.run exampleSetup (.readFrom PUBLIC 0 :: exampleSteps [PUBLIC])
    (exampleSetup.accounting.getBook st.books 10).state = 3 ∧
      ∀ e ∈ st.published, (executions 10 st.dispatched).count e = 1 := by
  intro st
  have hsafe : SafeRun exampleSetup exampleStart (.readFrom PUBLIC 0 :: exampleSteps [PUBLIC]) := by
    decide +kernel
  obtain ⟨hbook, honce⟩ := executions_applied_once exampleSetup _ _ _ hsafe
  have hunread : st.feed.unread.length = 0 := by decide +kernel
  have hstate : (System.effects exampleSetup (st.dispatched.flatMap (applications 10))
      (exampleSetup.accounting.getBook (fun _ => none) 10)).state = 3 := by decide +kernel
  refine ⟨(congrArg Book.state hbook).trans hstate, fun e he => (honce e he).2 ?_⟩
  change e ∉ executions 10 st.feed.unread
  rw [List.length_eq_zero_iff.mp hunread]
  exact List.not_mem_nil

/-- The ledger learns of the channel to the strategy and joins it, as it does for every
account: the trade is applied twice. -/
theorem trade_applied_twice :
    let st := exampleStart.run exampleSetup
      (.readFrom PUBLIC 0 :: .inspectChannel 40 ⟨10, 77⟩ :: exampleSteps [77, PUBLIC])
    let trade := Execution.trade (stableHash64 "trade|SHFE|9")
    trade ∈ st.published ∧ st.feed.unread.length = 0 ∧
      (executions 10 st.dispatched).count trade = 2 ∧
      (exampleSetup.accounting.getBook st.books 10).state = 6 := by
  decide +kernel

end Kungfu.Wingchun
