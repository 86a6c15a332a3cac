import Kungfu.Ctp.Query
import Kungfu.Logic.Run

/-!
# The query pump

A query should be in flight until it is answered or has been for too long.  But an answer
clears the flag only if its callback queues a task, which it does not for an error, nor for a
last answer without a row, instruments and positions apart; and the task clears the flag
whatever query has set it meanwhile.
-/

namespace Kungfu.Ctp

open Logic

/-- The last answer to a query queues a task that clears the flag. -/
def Answer.Clears (answer : Answer) (isError : Bool) : Prop :=
  isError = false ∧
    (answer.IsGiven ∨ answer.query = .instrument ∨ answer.query = .investorPosition)

instance (answer : Answer) (isError : Bool) : Decidable (answer.Clears isError) :=
  inferInstanceAs (Decidable (_ ∧ _))

/-- Only the last answer to a query queues such a task. -/
theorem isLast_of_finishes {isError isLast : Bool} {answer : Answer} {task : QueryTask}
    (h : task ∈ callback isError isLast answer) (hfinishes : task.Finishes) : isLast = true := by
  cases isLast with
  | true => rfl
  | false =>
    exfalso
    cases isError with
    | true => cases answer <;> simp [callback] at h
    | false =>
      cases answer with
      | instrument row =>
        cases row with
        | none => simp [callback] at h
        | some instrument =>
          simp only [callback, Option.toList_some, List.map_cons, List.map_nil] at h
          rcases List.mem_singleton.mp (by simpa using h) with rfl
          exact Bool.false_ne_true hfinishes
      | investorPosition row =>
        cases row with
        | none => simp [callback] at h
        | some position =>
          rcases List.mem_singleton.mp h with rfl
          exact Bool.false_ne_true hfinishes
      | tradingAccount isGiven | order isGiven | trade isGiven =>
        cases isGiven with
        | false => simp [callback] at h
        | true =>
          rcases List.mem_singleton.mp h with rfl
          exact Bool.false_ne_true hfinishes

/-- The last answer queues a task that clears the flag, if it does. -/
theorem exists_finishes {isError : Bool} {answer : Answer} (h : answer.Clears isError) :
    ∃ task ∈ callback isError true answer, task.Finishes := by
  obtain ⟨rfl, hgiven⟩ := h
  cases answer with
  | instrument row => exact ⟨.onQryInstrumentEnd, by simp [callback], trivial⟩
  | investorPosition row =>
    cases row with
    | none => exact ⟨.onQryInvestorPositionEnd, by simp [callback], trivial⟩
    | some position => exact ⟨.onQryInvestorPosition position true, by simp [callback], rfl⟩
  | tradingAccount isGiven =>
    have hgiven : isGiven = true := by simpa [Answer.IsGiven, Answer.query] using hgiven
    exact ⟨.onQryTradingAccount true, by simp [callback, hgiven], rfl⟩
  | order isGiven =>
    have hgiven : isGiven = true := by simpa [Answer.IsGiven, Answer.query] using hgiven
    exact ⟨.onQryOrder true, by simp [callback, hgiven], rfl⟩
  | trade isGiven =>
    have hgiven : isGiven = true := by simpa [Answer.IsGiven, Answer.query] using hgiven
    exact ⟨.onQryTrade true, by simp [callback, hgiven], rfl⟩

namespace Desk

variable {M : Markets} {home : UInt32} {d d' : Desk}

/-! ## Safe steps -/

/-- The last answer to the query in flight queues a task that clears the flag, the task is
performed before the query would be given up, and none is performed that belongs to another
query than the one in flight. -/
def Safe (d : Desk) : Step → Prop
  | .reply request answer isError isLast =>
      d.calling = [] ∧ (request, answer.query) ∈ d.outstanding → isLast = true →
        d.inFlight = some request → answer.Clears isError
  | .drain _ =>
      ∀ task ∈ d.tasks, task.2.Finishes → d.inFlight = none ∨ d.inFlight = some task.1
  | .tick now _ _ =>
      d.IsTimeout now → ∀ task ∈ d.tasks ++ d.calling, task.2.Finishes → d.inFlight ≠ some task.1
  | .push _ | .enqueue | .connection _ => True

instance (d : Desk) : DecidablePred d.Safe
  | .reply _ answer isError isLast =>
      inferInstanceAs (Decidable (_ → isLast = true → _ → answer.Clears isError))
  | .drain _ => List.decidableBAll _ _
  | .tick now _ _ =>
      have : Decidable (∀ task ∈ d.tasks ++ d.calling, task.2.Finishes → d.inFlight ≠ some task.1) :=
        List.decidableBAll _ _
      inferInstanceAs (Decidable (d.IsTimeout now → _))
  | .push _ | .enqueue | .connection _ => isTrue trivial

/-- What the pump promises of a step. -/
structure Disciplined (d d' : Desk) : Prop where
  /-- A query is in flight until it is answered or was for too long. -/
  cleared : ∀ request, d.inFlight = some request → d'.inFlight ≠ some request →
    request ∈ d.replied ∨ request ∈ d'.timedOut
  /-- An answered query is not in flight once the queued tasks are performed. -/
  clears : d'.tasks = [] → d'.calling = [] → ∀ request ∈ d'.replied, d'.inFlight ≠ some request
  /-- CTP has at most one query that was not given up. -/
  single : ∀ query ∈ d'.outstanding, query.1 ∉ d'.timedOut → d'.inFlight = some query.1
  /-- A query that is given up was not answered. -/
  prompt : ∀ request ∈ d'.timedOut, request ∉ d.timedOut → request ∉ d.replied

/-! ## The invariant -/

/-- The query in flight, as the queued tasks and CTP know it. -/
structure Tracked (d : Desk) : Prop where
  single : ∀ query ∈ d.outstanding, query.1 ∉ d.timedOut → d.inFlight = some query.1
  finishing : ∀ task ∈ d.tasks ++ d.calling, task.2.Finishes → task.1 ∈ d.replied
  awaited : ∀ request ∈ d.replied, d.inFlight = some request →
    ∃ task ∈ d.tasks ++ d.calling, task.1 = request ∧ task.2.Finishes

structure Consistent (d : Desk) : Prop extends Numbered d, Tracked d

theorem consistent_start : start.Consistent :=
  ⟨numbered_start, fun _ h => absurd h List.not_mem_nil, fun _ h => absurd h List.not_mem_nil,
    fun _ h => absurd h List.not_mem_nil⟩

theorem Consistent.sendNext (h : d.Consistent) (hflight : d.inFlight = none) (now : Int64)
    (isSent : Bool) : (d.sendNext now isSent).Consistent := by
  refine ⟨h.toNumbered.sendNext now isSent, ?_⟩
  unfold Desk.sendNext
  split
  · exact ⟨h.single, h.finishing, h.awaited⟩
  · split
    · exact ⟨h.single, h.finishing, h.awaited⟩
    · split
      · exact ⟨h.single, h.finishing, h.awaited⟩
      · split
        · refine ⟨?_, h.finishing, ?_⟩
          · intro query hquery htimedOut
            rcases List.mem_append.mp hquery with hquery | hquery
            · have hsome := h.single query hquery htimedOut
              rw [hflight] at hsome
              cases hsome
            · rw [List.mem_singleton.mp hquery]
          · intro request hrequest hsome
            cases hsome
            exact absurd (h.replied _ hrequest) (by simp)
        · exact ⟨h.single, h.finishing, h.awaited⟩

theorem Consistent.drainTasks (h : d.Consistent) {now : Int64} (hsafe : d.Safe (.drain now)) :
    (d.drainTasks M home now).Consistent := by
  refine ⟨h.toNumbered.step (.drain now), ?_⟩
  obtain ⟨⟨-, htasks, hcalling, houtstanding, hanswered, htimedOut, -⟩, hflight⟩ :=
    foldl_perform_spec M home now d.tasks { d with tasks := [] }
  rw [← Desk.drainTasks] at htasks hcalling houtstanding hanswered htimedOut hflight
  have hreplied : (d.drainTasks M home now).replied = d.replied := by
    rw [Desk.replied, hanswered, Desk.replied]
  refine ⟨?_, ?_, ?_⟩
  · intro query hquery hnot
    rw [houtstanding] at hquery
    rw [htimedOut] at hnot
    have hsome := h.single query hquery hnot
    rw [hflight, if_neg, hsome]
    -- a task that clears the flag belongs to a query that is answered
    rintro ⟨task, htask, hfinishes⟩
    rcases hsafe task htask hfinishes with hnone | hown
    · cases hsome.symm.trans hnone
    · have heq : query.1 = task.1 := Option.some.inj (hsome.symm.trans hown)
      apply h.disjoint query hquery
      rw [heq]
      exact h.finishing task (List.mem_append_left _ htask) hfinishes
  · intro task htask hfinishes
    rw [htasks, hcalling] at htask
    rw [hreplied]
    exact h.finishing task (List.mem_append_right _ htask) hfinishes
  · intro request hrequest hsome
    rw [hreplied] at hrequest
    rw [hflight] at hsome
    split at hsome
    · cases hsome
    · rename_i hnone
      obtain ⟨task, htask, heq, hfinishes⟩ := h.awaited request hrequest hsome
      rw [htasks, hcalling]
      rcases List.mem_append.mp htask with htask | htask
      · exact absurd ⟨task, htask, hfinishes⟩ hnone
      · exact ⟨task, htask, heq, hfinishes⟩

theorem Consistent.pumpQueryQueue (h : d.Consistent) (now sentAt : Int64) (isSent : Bool) :
    (d.pumpQueryQueue now sentAt isSent).Consistent := by
  unfold Desk.pumpQueryQueue
  cases hflight : d.inFlight with
  | none => exact h.sendNext hflight sentAt isSent
  | some request =>
    by_cases htimeout : d.IsTimeout now
    · simp only [htimeout, if_true]
      have hcleared : Consistent { d with inFlight := none, timedOut := request :: d.timedOut } := by
        refine ⟨⟨h.sent, h.replied, h.disjoint⟩, ?_, h.finishing, ?_⟩
        · intro query hquery hnot
          have hsome := h.single query hquery fun hmem => hnot (List.mem_cons_of_mem _ hmem)
          cases hflight.symm.trans hsome
          exact absurd List.mem_cons_self hnot
        · intro _ _ hsome
          cases hsome
      exact hcleared.sendNext rfl sentAt isSent
    · simp only [htimeout, if_false]
      exact h

theorem Consistent.reply (h : d.Consistent) {request : ℕ} {answer : Answer} {isError isLast : Bool}
    (hcalling : d.calling = []) (houtstanding : (request, answer.query) ∈ d.outstanding)
    (hsafe : d.Safe (.reply request answer isError isLast)) :
    (d.reply request answer isError isLast).Consistent := by
  refine ⟨h.toNumbered.reply houtstanding isError isLast, ?_, ?_, ?_⟩
  · intro query hquery
    exact h.single query (mem_outstanding_reply.mp hquery).1
  · intro task htask hfinishes
    apply mem_replied_reply.mpr
    rcases List.mem_append.mp htask with htask | htask
    · exact .inl (h.finishing task (List.mem_append_left _ htask) hfinishes)
    · obtain ⟨task', htask', rfl⟩ := List.mem_map.mp htask
      exact .inr ⟨rfl, isLast_of_finishes htask' hfinishes⟩
  · intro request' hrequest' hsome
    rcases mem_replied_reply.mp hrequest' with hrequest' | ⟨rfl, rfl⟩
    · obtain ⟨task, htask, heq, hfinishes⟩ := h.awaited request' hrequest' hsome
      rw [hcalling, List.append_nil] at htask
      exact ⟨task, List.mem_append_left _ htask, heq, hfinishes⟩
    · obtain ⟨task, htask, hfinishes⟩ :=
        exists_finishes (hsafe ⟨hcalling, houtstanding⟩ rfl hsome)
      exact ⟨(request', task), List.mem_append_right _ (List.mem_map_of_mem htask), rfl, hfinishes⟩

theorem Consistent.step (h : d.Consistent) {s : Step} (hsafe : d.Safe s) :
    (d.step M home s).Consistent := by
  cases s with
  | push queries => exact ⟨⟨h.sent, h.replied, h.disjoint⟩, h.single, h.finishing, h.awaited⟩
  | tick now sentAt isSent => exact h.pumpQueryQueue now sentAt isSent
  | drain now => exact h.drainTasks hsafe
  | reply request answer isError isLast =>
    simp only [Desk.step]
    split
    · rename_i henabled
      exact h.reply henabled.1 henabled.2 hsafe
    · exact h
  | enqueue =>
    refine ⟨h.toNumbered.step .enqueue, ?_⟩
    simp only [Desk.step]
    split
    · exact ⟨h.single, h.finishing, h.awaited⟩
    · rename_i task calling hcalling
      have hmem : ∀ task', task' ∈ (d.tasks ++ [task]) ++ calling ↔ task' ∈ d.tasks ++ d.calling := by
        intro task'
        rw [hcalling, List.append_assoc]
        rfl
      refine ⟨h.single, ?_, ?_⟩
      · intro task' htask'
        exact h.finishing task' ((hmem task').mp htask')
      · intro request hrequest hsome
        obtain ⟨task', htask', hfinishes⟩ := h.awaited request hrequest hsome
        exact ⟨task', (hmem task').mpr htask', hfinishes⟩
  | connection event =>
    refine ⟨h.toNumbered.step (.connection event), ?_⟩
    simp only [Desk.step]
    split
    · rename_i hcalling
      refine ⟨h.single, ?_, ?_⟩
      · intro task htask hfinishes
        rw [hcalling, List.append_nil] at htask
        rcases List.mem_append.mp htask with htask | htask
        · exact h.finishing task (List.mem_append_left _ htask) hfinishes
        · rw [List.mem_singleton.mp htask] at hfinishes
          exact hfinishes.elim
      · intro request hrequest hsome
        obtain ⟨task, htask, hfinishes⟩ := h.awaited request hrequest hsome
        rw [hcalling, List.append_nil] at htask
        exact ⟨task, List.mem_append_left _ (List.mem_append_left _ htask), hfinishes⟩
    · exact ⟨h.single, h.finishing, h.awaited⟩

/-! ## Runs -/

theorem Consistent.clears (h : d.Consistent) (htasks : d.tasks = []) (hcalling : d.calling = []) :
    ∀ request ∈ d.replied, d.inFlight ≠ some request := by
  intro request hrequest hsome
  obtain ⟨task, htask, -⟩ := h.awaited request hrequest hsome
  rw [htasks, hcalling] at htask
  exact absurd htask List.not_mem_nil

/-- A step that leaves the flag. -/
theorem Consistent.disciplined_of_eq (h' : d'.Consistent) (hflight : d'.inFlight = d.inFlight)
    (htimedOut : d'.timedOut = d.timedOut) : d.Disciplined d' := by
  refine ⟨?_, h'.clears, h'.single, ?_⟩
  · intro request hsome hne
    exact absurd (hflight.trans hsome) hne
  · intro request hmem hnot
    rw [htimedOut] at hmem
    exact absurd hmem hnot

theorem timedOut_sendNext (d : Desk) (now : Int64) (isSent : Bool) :
    (d.sendNext now isSent).timedOut = d.timedOut := by
  unfold sendNext
  split
  · rfl
  · split
    · rfl
    · split
      · rfl
      · split <;> rfl

/-- A safe step of a consistent desk is disciplined. -/
theorem Consistent.disciplined (h : d.Consistent) {s : Step} (hsafe : d.Safe s) :
    d.Disciplined (d.step M home s) := by
  have h' : (d.step M home s).Consistent := h.step hsafe
  cases s with
  | push queries => exact h'.disciplined_of_eq rfl rfl
  | tick now sentAt isSent =>
    simp only [Desk.step, Desk.pumpQueryQueue] at h' ⊢
    cases hflight : d.inFlight with
    | none =>
      simp only [hflight] at h' ⊢
      refine ⟨?_, h'.clears, h'.single, ?_⟩
      · intro request hsome
        cases hflight.symm.trans hsome
      · intro request hmem hnot
        rw [timedOut_sendNext] at hmem
        exact absurd hmem hnot
    | some request =>
      simp only [hflight] at h' ⊢
      by_cases htimeout : d.IsTimeout now
      · simp only [htimeout, if_true] at h' ⊢
        refine ⟨?_, h'.clears, h'.single, ?_⟩
        · intro request' hsome _
          cases hflight.symm.trans hsome
          rw [timedOut_sendNext]
          exact .inr List.mem_cons_self
        · intro request' hmem hnot hanswered
          rw [timedOut_sendNext] at hmem
          rcases List.mem_cons.mp hmem with rfl | hmem
          · obtain ⟨task, htask, heq, hfinishes⟩ := h.awaited _ hanswered hflight
            apply hsafe htimeout task htask hfinishes
            rw [heq]
            exact hflight
          · exact hnot hmem
      · simp only [htimeout, if_false] at h' ⊢
        exact h'.disciplined_of_eq rfl rfl
  | drain now =>
    obtain ⟨hsame, hflight⟩ := foldl_perform_spec M home now d.tasks { d with tasks := [] }
    rw [← Desk.drainTasks] at hflight
    refine ⟨?_, h'.clears, h'.single, ?_⟩
    · intro request hsome hne
      simp only [Desk.step] at hne
      rw [hflight] at hne
      split at hne
      · rename_i htask
        obtain ⟨task, htask, hfinishes⟩ := htask
        rcases hsafe task htask hfinishes with hnone | hown
        · cases hsome.symm.trans hnone
        · cases hsome.symm.trans hown
          exact .inl (h.finishing task (List.mem_append_left _ htask) hfinishes)
      · exact absurd hsome hne
    · intro request hmem hnot
      exact absurd (hsame.timedOut ▸ hmem) hnot
  | reply request answer isError isLast =>
    apply h'.disciplined_of_eq
    · simp only [Desk.step]
      split <;> rfl
    · simp only [Desk.step]
      split <;> rfl
  | enqueue =>
    apply h'.disciplined_of_eq
    · simp only [Desk.step]
      split <;> rfl
    · simp only [Desk.step]
      split <;> rfl
  | connection event =>
    apply h'.disciplined_of_eq
    · simp only [Desk.step]
      split <;> rfl
    · simp only [Desk.step]
      split <;> rfl

/-- In a run of safe steps every step is disciplined. -/
theorem pump_disciplined {steps : List Step} (hsafe : Along (step M home) Safe start steps) :
    Along (step M home) (fun d s => d.Disciplined (d.step M home s)) start steps :=
  hsafe.along (fun _ _ h hsafe => h.step hsafe) (fun _ _ h hsafe => h.disciplined hsafe)
    consistent_start

/-! ### The initial queries -/

/-- A query is sent and answered. -/
def exchange (request : ℕ) (answer : Answer) (now : Int64) : List Step :=
  [.tick now now true, .reply request answer false true, .enqueue, .drain now]

/-- After the login the instruments, the account and the positions are queried. -/
def exampleSteps : List Step :=
  [.connection .onLoginSuccess, .connection .onSettlementConfirmed, .drain 0, .tick 1 1 true] ++
    exchange 1 (.instrument none) 2 ++ exchange 2 (.tradingAccount true) 3 ++
    exchange 3 (.investorPosition none) 4

theorem pump_disciplined_example :
    Along (step exampleMarkets 0) (fun d s => d.Disciplined (d.step exampleMarkets 0 s)) start
      (exampleSteps ++ exchange 4 (.order true) 5) :=
  pump_disciplined (by decide +kernel)

/-- An account without orders: the query of orders is answered, but the query of trades waits
until it is given up. -/
theorem empty_answer_stalls :
    let d := start.run exampleMarkets 0 (exampleSteps ++ exchange 4 (.order false) 5)
    4 ∈ d.replied ∧ d.tasks = [] ∧ d.calling = [] ∧ d.inFlight = some 4 ∧
      (d.pumpQueryQueue 120000000004 120000000004 true).queryQueue = [some .trade] ∧
      4 ∈ (d.pumpQueryQueue 120000000005 120000000005 true).timedOut := by
  decide +kernel

end Desk

end Kungfu.Ctp
