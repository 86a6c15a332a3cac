import Kungfu.Api.Service
import Kungfu.Logic.Run

/-!
# Subscriptions to strategies

A client that subscribes to a strategy is told of what traders write to it.  The service joins the
channel of every trader that is live when the client subscribes.  A trader that registers later, or
again, has its channel joined only if another client subscribes anew.  A channel that has no page yet
cannot be read: the request fails after the session has the strategy, and the reader is left with a
journal without a page.
-/

namespace Kungfu.Api

open Longfist Yijinjing Index Logic

namespace ApiService

section Model

variable (s : ApiService)

/-- The channels of live traders to the strategies of a session are read, an order or trade there is
queued once for the session, unless the service routes the order itself, the channels that are read
for others still are, and no journal of the reader is without a page. -/
structure Delivers : Prop where
  joined : ∀ id c, s.sessions.lookup id = some c → ∀ strategy ∈ c.subscribedStrategies,
    ∀ td ∈ s.registry, s.IsTd td → ⟨td, strategy⟩ ∈ s.joins
  pushed : ∀ id c, s.sessions.lookup id = some c → ∀ strategy ∈ c.subscribedStrategies,
    ∀ source orderId, s.manualOrderSessions.lookup orderId = none →
      (s.pushStrategyEvent source strategy orderId).sessions.lookup id =
        some (c.queue (.strategyEvent source strategy orderId))
  relied : s.relied ⊆ s.joins
  readable : s.hanging = ∅

/-- The channel of a trader is read for every strategy that is subscribed to. -/
def JoinsAll (td : UInt32) : Prop :=
  ∀ strategy, s.SubscribedStrategy strategy → ⟨td, strategy⟩ ∈ s.joins

/-- Another session subscribes to the strategy. -/
def StrategyNeeded (id strategy : UInt32) : Prop :=
  ∃ id', id' ≠ id ∧ strategy ∈ (s.session id').subscribedStrategies

/-- No channel of a trader to the strategy is read for others. -/
def Spares (strategy : UInt32) : Prop := ∀ k ∈ s.relied, s.IsTd k.location → k.dest ≠ strategy

/-- A trader that becomes live has its channels to all subscribed strategies joined already, a
strategy to which nobody subscribes any more has no channel that others rely on, and a channel that
is to be read has a page. -/
def Joins : Op → Prop
  | .addLocation location => location.uid ∉ s.locations → location.category = .TD →
      location.uid ∈ s.registry → s.JoinsAll location.uid
  | .register uid => s.IsTd uid → s.JoinsAll uid
  | .readFrom source dest => source ∈ s.locations → s.Opens ⟨source, dest⟩
  | .subscribeStrategy id (some strat) => strat.category = .STRATEGY → id ∈ s.sessions →
      strat.uid ∉ (s.session id).subscribedStrategies →
        ∀ td ∈ s.registry, s.IsTd td → s.Opens ⟨td, strat.uid⟩
  | .unsubscribeStrategy id (some strat) => strat.category = .STRATEGY → id ∈ s.sessions →
      s.StrategyNeeded id strat.uid ∨ s.Spares strat.uid
  | .cleanup id => ∀ strategy ∈ (s.session id).subscribedStrategies,
      s.StrategyNeeded id strategy ∨ s.Spares strategy
  | _ => True

end Model

/-! ## Sessions -/

section Sessions

variable {s s' : ApiService} {id id' strategy : UInt32} {c : ClientSession}

theorem mem_session : strategy ∈ (s.session id).subscribedStrategies ↔
    ∃ c, s.sessions.lookup id = some c ∧ strategy ∈ c.subscribedStrategies := by
  cases h : s.sessions.lookup id with
  | none => simp [session, h, ClientSession.new]
  | some c => simp [session, h]

theorem subscribedStrategy_iff_session :
    s.SubscribedStrategy strategy ↔ ∃ id, strategy ∈ (s.session id).subscribedStrategies := by
  simp [subscribedStrategy_iff, mem_session]

/-- A session is changed, but for its strategies. -/
theorem strategies_setSession
    (hsame : c.subscribedStrategies = (s.session id).subscribedStrategies) (id' : UInt32) :
    ((s.setSession id c).session id').subscribedStrategies =
      (s.session id').subscribedStrategies := by
  rw [session_setSession]
  split
  · rename_i hid
    rw [hid, hsame]
  · rfl

theorem subscribedStrategy_setSession : (s.setSession id c).SubscribedStrategy strategy ↔
    strategy ∈ c.subscribedStrategies ∨ s.StrategyNeeded id strategy := by
  rw [subscribedStrategy_iff_session]
  simp only [session_setSession]
  constructor
  · rintro ⟨id', hmem⟩
    by_cases hid : id' = id
    · exact .inl (by simpa [hid] using hmem)
    · exact .inr ⟨id', hid, by simpa [hid] using hmem⟩
  · rintro (hmem | ⟨id', hid, hmem⟩)
    · exact ⟨id, by simpa using hmem⟩
    · exact ⟨id', by simpa [hid] using hmem⟩

/-- An order or trade is queued once for every session that subscribes to its strategy. -/
theorem lookup_pushStrategyEvent {source : UInt32} {orderId : UInt64}
    (h : s.sessions.lookup id = some c) (hstrategy : strategy ∈ c.subscribedStrategies)
    (hmanual : s.manualOrderSessions.lookup orderId = none) :
    (s.pushStrategyEvent source strategy orderId).sessions.lookup id =
      some (c.queue (.strategyEvent source strategy orderId)) := by
  simp [pushStrategyEvent, hmanual, h, hstrategy]

/-- What is subscribed to is joined. -/
def Joined (s : ApiService) : Prop := ∀ td ∈ s.registry, s.IsTd td → s.JoinsAll td

theorem delivers_iff_joined :
    s.Delivers ↔ s.Joined ∧ s.relied ⊆ s.joins ∧ s.hanging = ∅ := by
  constructor
  · intro h
    refine ⟨fun td htd hcategory strategy hstrategy => ?_, h.relied, h.readable⟩
    obtain ⟨id, c, hlookup, hmem⟩ := subscribedStrategy_iff.mp hstrategy
    exact h.joined id c hlookup strategy hmem td htd hcategory
  · rintro ⟨hjoined, hrelied, hreadable⟩
    refine ⟨fun id c hlookup strategy hmem td htd hcategory => ?_, ?_, hrelied, hreadable⟩
    · exact hjoined td htd hcategory strategy (subscribedStrategy_iff.mpr ⟨id, c, hlookup, hmem⟩)
    · intro id c hlookup strategy hmem source orderId hmanual
      exact lookup_pushStrategyEvent hlookup hmem hmanual

/-- Where nothing is subscribed to anew and the journals stay, everybody is still told. -/
theorem Delivers.of_sessions (h : s.Delivers)
    (hsessions : ∀ id, (s'.session id).subscribedStrategies = (s.session id).subscribedStrategies)
    (hlocations : s'.locations = s.locations) (hregistry : s'.registry = s.registry)
    (hjoins : s'.joins = s.joins) (hhanging : s'.hanging = s.hanging)
    (hrelied : s'.relied = s.relied) : s'.Delivers := by
  rw [delivers_iff_joined] at h ⊢
  rw [hjoins, hhanging, hrelied]
  refine ⟨fun td htd hcategory strategy hstrategy => ?_, h.2⟩
  rw [hregistry] at htd
  rw [IsTd, hlocations] at hcategory
  rw [subscribedStrategy_iff_session] at hstrategy
  simp only [hsessions] at hstrategy
  rw [hjoins]
  exact h.1 td htd hcategory strategy (subscribedStrategy_iff_session.mpr hstrategy)

end Sessions

/-! ## Steps -/

section Steps

variable {s : ApiService} {id strategy : UInt32} {op : Op}

/-- What is asked for after a strategy may have lost its last subscriber. -/
theorem delivers_drop_iff (strategies : List UInt32) (h : s.Joined) (hrelied : s.relied ⊆ s.joins)
    (hreadable : s.hanging = ∅) :
    (strategies.foldl dropStrategy s).Delivers ↔
      ∀ strategy ∈ strategies, s.SubscribedStrategy strategy ∨ s.Spares strategy := by
  rw [delivers_iff_joined, foldl_dropStrategy]
  constructor
  · rintro ⟨-, hkept, -⟩ strategy hmem
    by_cases hneeded : s.SubscribedStrategy strategy
    · exact .inl hneeded
    · refine .inr fun k hk htd hdest => ?_
      have hstays := (Finset.mem_filter.mp (hkept hk)).2
      exact hstays ⟨htd, hdest ▸ hmem, hdest ▸ hneeded⟩
  · intro hspares
    refine ⟨fun td htd hcategory strategy hstrategy => ?_, fun k hk => ?_, ?_⟩
    · refine Finset.mem_filter.mpr ⟨h td htd hcategory strategy hstrategy, ?_⟩
      rintro ⟨-, -, hdropped⟩
      exact hdropped hstrategy
    · refine Finset.mem_filter.mpr ⟨hrelied hk, ?_⟩
      rintro ⟨htd, hmem, hdropped⟩
      rcases hspares k.dest hmem with hneeded | hspared
      · exact hdropped hneeded
      · exact hspared k hk htd rfl
    · simp [hreadable]

/-- A trader that becomes live is the only one whose channels may not be read. -/
theorem Delivers.of_trader (h : s.Delivers) (s' : ApiService) {uid : UInt32}
    (hsessions : s'.sessions = s.sessions) (hjoins : s'.joins = s.joins)
    (hhanging : s'.hanging = s.hanging) (hrelied : s'.relied = s.relied) {P : Prop}
    (hlive : ∀ td, td ∈ s'.registry ∧ s'.IsTd td ↔
      (td ∈ s.registry ∧ s.IsTd td) ∨ td = uid ∧ P) :
    s'.Delivers ↔ (P → s.JoinsAll uid) := by
  have hall : ∀ td, s'.JoinsAll td ↔ s.JoinsAll td := by
    intro td
    simp only [JoinsAll, SubscribedStrategy, hsessions, hjoins]
  rw [delivers_iff_joined] at h ⊢
  rw [hjoins, hhanging, hrelied]
  constructor
  · rintro ⟨hjoined, -⟩ hP
    obtain ⟨hregistered, htd⟩ := (hlive uid).mpr (.inr ⟨rfl, hP⟩)
    exact (hall uid).mp (hjoined uid hregistered htd)
  · intro hnew
    refine ⟨fun td hregistered htd => (hall td).mpr ?_, h.2⟩
    rcases (hlive td).mp ⟨hregistered, htd⟩ with ⟨hold, hold'⟩ | ⟨rfl, hP⟩
    · exact h.1 td hold hold'
    · exact hnew hP

theorem Delivers.accept (h : s.Delivers) : s.accept.Delivers := by
  refine h.of_sessions (fun id => ?_) rfl rfl rfl rfl rfl
  rw [session_accept]

theorem Delivers.requestMarketData (h : s.Delivers) (md : Option Location)
    (exchangeId instrumentId : String) :
    (s.handleRequestMarketData id md exchangeId instrumentId).1.Delivers := by
  unfold handleRequestMarketData
  cases md with
  | none => exact h
  | some md =>
      dsimp only
      split
      · exact h
      split
      · exact h
      cases instrumentKeyOf exchangeId instrumentId with
      | error fault => exact h
      | ok key =>
          exact h.of_sessions (strategies_setSession rfl) rfl rfl rfl rfl rfl

theorem Delivers.cancelMarketData (h : s.Delivers) (md : Option Location)
    (exchangeId instrumentId : String) :
    (s.handleCancelMarketData id md exchangeId instrumentId).1.Delivers := by
  unfold handleCancelMarketData
  cases md with
  | none => exact h
  | some md =>
      dsimp only
      split
      · exact h.of_sessions (strategies_setSession rfl) rfl rfl rfl rfl rfl
      cases instrumentKeyOf exchangeId instrumentId with
      | error fault => exact h.of_sessions (strategies_setSession rfl) rfl rfl rfl rfl rfl
      | ok key => exact h.of_sessions (strategies_setSession rfl) rfl rfl rfl rfl rfl

theorem Delivers.strategyEvent (h : s.Delivers) (source dest : UInt32) (orderId : UInt64) :
    (s.pushStrategyEvent source dest orderId).Delivers := by
  unfold pushStrategyEvent
  cases s.manualOrderSessions.lookup orderId with
  | some id =>
      dsimp only
      cases hlookup : s.sessions.lookup id with
      | none => exact h
      | some c =>
          refine h.of_sessions (strategies_setSession ?_) rfl rfl rfl rfl rfl
          rw [session_of_lookup hlookup]
          rfl
  | none =>
      refine h.of_sessions (fun id => ?_) rfl rfl rfl rfl rfl
      cases hlookup : s.sessions.lookup id with
      | none => simp [session, hlookup]
      | some c =>
          by_cases hdest : dest ∈ c.subscribedStrategies <;>
            simp [session, hlookup, hdest, ClientSession.queue]

/-- A client that subscribes has the channels of all live traders joined, if they can be read. -/
theorem Delivers.joinStrategy_iff (h : s.Delivers) {c : ClientSession} {strat : UInt32}
    (hlookup : s.sessions.lookup id = some c) :
    ((s.setSession id { c with
      subscribedStrategies := strat :: c.subscribedStrategies }).joinStrategy strat).1.Delivers ↔
      ∀ td ∈ s.registry, s.IsTd td → s.Opens ⟨td, strat⟩ := by
  have hknown : ∀ td, s.IsTd td → td ∈ s.locations.keys := by
    rintro td ⟨location, hlocation, -⟩
    exact AList.mem_keys.mp (AList.lookup_isSome.mp (by rw [hlocation]; rfl))
  rw [delivers_iff_joined] at h ⊢
  rw [joinStrategy]
  constructor
  · rintro ⟨-, -, hreadable⟩ td hregistered htd
    by_contra hnot
    obtain ⟨joins, k, text, hjoined⟩ := joinTraders_of_not_opens strat s.locations.keys
      (s.setSession id _) ⟨td, hknown td htd, htd, hregistered, hnot⟩
    rw [show (s.setSession id _).locations.keys = s.locations.keys from rfl, hjoined] at hreadable
    exact absurd hreadable (Finset.insert_ne_empty k _)
  · intro hopens
    obtain ⟨joins, hjoined, hkept, hall⟩ := joinTraders_of_opens strat s.locations.keys
      (s.setSession id _) fun td _ htd hregistered => hopens td hregistered htd
    rw [show (s.setSession id _).locations.keys = s.locations.keys from rfl, hjoined]
    refine ⟨fun td hregistered htd strategy hstrategy => ?_, fun k hk => hkept (h.2.1 hk), h.2.2⟩
    by_cases hnew : strategy = strat
    · rw [hnew]
      exact hall td (hknown td htd) htd hregistered
    · refine hkept (h.1 td hregistered htd strategy ?_)
      rcases subscribedStrategy_setSession.mp hstrategy with hmem | ⟨id', -, hmem⟩
      · exact subscribedStrategy_iff.mpr
          ⟨id, c, hlookup, (List.mem_cons.mp hmem).resolve_left hnew⟩
      · exact subscribedStrategy_iff_session.mpr ⟨id', hmem⟩

theorem Delivers.subscribeStrategy_iff (h : s.Delivers) (strat : Option Location) :
    (s.handleSubscribeStrategy id strat).1.Delivers ↔ s.Joins (.subscribeStrategy id strat) := by
  unfold handleSubscribeStrategy
  cases strat with
  | none => exact iff_of_true h trivial
  | some strat =>
      simp only [Joins]
      by_cases hcategory : strat.category = .STRATEGY
      · cases hlookup : s.sessions.lookup id with
        | none =>
            have hid : id ∉ s.sessions := AList.lookup_eq_none.mp hlookup
            simpa [hcategory, hid] using h
        | some c =>
            have hid : id ∈ s.sessions := AList.lookup_isSome.mp (by rw [hlookup]; rfl)
            simp only [hcategory, hid, session_of_lookup hlookup, ne_eq, not_true_eq_false, if_false,
              true_imp_iff]
            by_cases hmem : strat.uid ∈ c.subscribedStrategies
            · simpa [hmem] using h
            · simp only [hmem, if_false, not_false_eq_true, true_imp_iff]
              exact h.joinStrategy_iff hlookup
      · simpa [hcategory] using h

/-- What others rely on is read, if it can be. -/
theorem Delivers.readFrom_iff (h : s.Delivers) (source dest : UInt32) :
    (s.onReadFrom source dest).Delivers ↔ s.Joins (.readFrom source dest) := by
  unfold onReadFrom
  simp only [Joins]
  by_cases hknown : source ∈ s.locations
  · rw [if_pos hknown, join]
    by_cases hopens : s.Opens ⟨source, dest⟩
    · refine iff_of_true ?_ fun _ => hopens
      rw [if_pos hopens]
      rw [delivers_iff_joined] at h ⊢
      refine ⟨fun td hregistered htd strategy hstrategy => ?_,
        Finset.insert_subset_insert _ h.2.1, h.2.2⟩
      exact Finset.mem_insert_of_mem (h.1 td hregistered htd strategy hstrategy)
    · refine iff_of_false (fun hdelivers => ?_) fun hall => hopens (hall hknown)
      simpa [hopens] using hdelivers.readable
  · simpa [hknown] using h

/-- A session is left without a strategy. -/
theorem Delivers.dropStrategy_iff (h : s.Delivers) {c c' : ClientSession}
    (hlookup : s.sessions.lookup id = some c)
    (hless : ∀ strategy ∈ c'.subscribedStrategies, strategy ∈ c.subscribedStrategies)
    (hnot : strategy ∉ c'.subscribedStrategies) :
    ((s.setSession id c').dropStrategy strategy).Delivers ↔
      s.StrategyNeeded id strategy ∨ s.Spares strategy := by
  rw [delivers_iff_joined] at h
  have hjoined : (s.setSession id c').Joined := by
    intro td htd hcategory strategy hstrategy
    refine h.1 td htd hcategory strategy ?_
    rcases subscribedStrategy_setSession.mp hstrategy with hmem | ⟨id', -, hmem⟩
    · exact subscribedStrategy_iff.mpr ⟨id, c, hlookup, hless strategy hmem⟩
    · exact subscribedStrategy_iff_session.mpr ⟨id', hmem⟩
  have hdrop := delivers_drop_iff [strategy] hjoined h.2.1 h.2.2
  simp only [List.foldl_cons, List.foldl_nil, List.mem_singleton, forall_eq,
    subscribedStrategy_setSession, hnot, false_or] at hdrop
  exact hdrop

theorem Delivers.unsubscribeStrategy_iff (h : s.Delivers) (strat : Option Location) :
    (s.handleUnsubscribeStrategy id strat).1.Delivers ↔
      s.Joins (.unsubscribeStrategy id strat) := by
  unfold handleUnsubscribeStrategy
  cases strat with
  | none => exact iff_of_true h trivial
  | some strat =>
      simp only [Joins]
      by_cases hcategory : strat.category = .STRATEGY
      · cases hlookup : s.sessions.lookup id with
        | none =>
            have hid : id ∉ s.sessions := AList.lookup_eq_none.mp hlookup
            simpa [hcategory, hid] using h
        | some c =>
            have hid : id ∈ s.sessions := AList.lookup_isSome.mp (by rw [hlookup]; rfl)
            simp only [hcategory, hid, ne_eq, not_true_eq_false, if_false, true_imp_iff]
            exact h.dropStrategy_iff hlookup (fun _ hmem => (List.mem_filter.mp hmem).1) (by simp)
      · simpa [hcategory] using h

/-- A session is gone, and with it what it subscribed to. -/
theorem Delivers.foldl_dropStrategy_iff (h : s.Delivers) {t : ApiService}
    (hsessions : t.sessions = s.sessions.erase id) (hlocations : t.locations = s.locations)
    (hregistry : t.registry = s.registry) (hjoins : t.joins = s.joins)
    (hhanging : t.hanging = s.hanging) (hrelied : t.relied = s.relied) (strategies : List UInt32) :
    (strategies.foldl dropStrategy t).Delivers ↔
      ∀ strategy ∈ strategies, s.StrategyNeeded id strategy ∨ s.Spares strategy := by
  have hsession : ∀ id', t.session id' = (s.eraseSession id).session id' := by
    intro id'
    rw [session, session, hsessions]
    rfl
  have hneeded : ∀ strategy, t.SubscribedStrategy strategy ↔ s.StrategyNeeded id strategy := by
    intro strategy
    rw [subscribedStrategy_iff_session]
    simp only [hsession, session_eraseSession]
    constructor
    · rintro ⟨id', hmem⟩
      by_cases hid : id' = id
      · simp [hid, ClientSession.new] at hmem
      · exact ⟨id', hid, by simpa [hid] using hmem⟩
    · rintro ⟨id', hid, hmem⟩
      exact ⟨id', by simpa [hid] using hmem⟩
  have htd : ∀ uid, t.IsTd uid ↔ s.IsTd uid := by simp [IsTd, hlocations]
  rw [delivers_iff_joined] at h
  have hjoined : t.Joined := by
    intro td hregistered hcategory strategy hstrategy
    rw [hjoins]
    refine h.1 td (hregistry ▸ hregistered) ((htd td).mp hcategory) strategy ?_
    obtain ⟨id', -, hmem⟩ := (hneeded strategy).mp hstrategy
    exact subscribedStrategy_iff_session.mpr ⟨id', hmem⟩
  rw [delivers_drop_iff _ hjoined (by rw [hrelied, hjoins]; exact h.2.1) (hhanging.trans h.2.2)]
  simp only [hneeded, Spares, hrelied, htd]

theorem Delivers.cleanup_iff (h : s.Delivers) :
    (s.cleanupSession id).Delivers ↔ s.Joins (.cleanup id) := by
  unfold cleanupSession Joins
  dsimp only
  cases hlookup : s.sessions.lookup id with
  | none =>
      refine iff_of_true (h.of_sessions (fun _ => rfl) rfl rfl rfl rfl rfl) ?_
      simp [session, hlookup, ClientSession.new]
  | some c =>
      dsimp only
      rw [session_of_lookup hlookup]
      apply h.foldl_dropStrategy_iff <;> rfl

theorem Delivers.step_iff (h : s.Delivers) : (s.step op).Delivers ↔ s.Joins op := by
  cases op with
  | accept => exact iff_of_true h.accept trivial
  | onWriteTo dest => exact iff_of_true (h.of_sessions (fun _ => rfl) rfl rfl rfl rfl rfl) trivial
  | addLocation location =>
      have hlive : ∀ td, td ∈ s.registry ∧ (s.step (.addLocation location)).IsTd td ↔
          (td ∈ s.registry ∧ s.IsTd td) ∨ td = location.uid ∧
            (location.uid ∉ s.locations ∧ location.category = .TD ∧ location.uid ∈ s.registry) := by
        intro td
        by_cases hknown : location.uid ∈ s.locations
        · simp [step, Table.tryEmplace_of_mem hknown, hknown]
        · have hlookup := congrFun (Table.lookup_tryEmplace_eq (c := location) hknown) td
          by_cases htd : td = location.uid
          · subst htd
            have hnone := AList.lookup_eq_none.mpr hknown
            simp only [Function.update_self] at hlookup
            simp [IsTd, step, hlookup, hnone, hknown, and_comm]
          · rw [Function.update_of_ne htd] at hlookup
            simp [IsTd, step, hlookup, htd]
      rw [h.of_trader (s.step (.addLocation location)) rfl rfl rfl rfl hlive]
      simp only [Joins, and_imp]
  | register uid =>
      have hlive : ∀ td, td ∈ insert uid s.registry ∧ s.IsTd td ↔
          (td ∈ s.registry ∧ s.IsTd td) ∨ td = uid ∧ s.IsTd uid := by
        intro td
        rw [Finset.mem_insert]
        constructor
        · rintro ⟨rfl | hregistered, htd⟩
          · exact .inr ⟨rfl, htd⟩
          · exact .inl ⟨hregistered, htd⟩
        · rintro (⟨hregistered, htd⟩ | ⟨rfl, htd⟩)
          · exact ⟨.inr hregistered, htd⟩
          · exact ⟨.inl rfl, htd⟩
      exact h.of_trader (s.step (.register uid)) rfl rfl rfl rfl hlive
  | deregister uid =>
      refine iff_of_true (?_ : (s.onDeregister uid).Delivers) trivial
      unfold onDeregister
      split
      · exact h
      · rw [delivers_iff_joined] at h ⊢
        refine ⟨fun td hregistered htd strategy hstrategy => ?_, fun k hk => ?_, ?_⟩
        · obtain ⟨hne, hregistered⟩ := Finset.mem_erase.mp hregistered
          exact Finset.mem_filter.mpr ⟨h.1 td hregistered htd strategy hstrategy, hne⟩
        · obtain ⟨hk, hne⟩ := Finset.mem_filter.mp hk
          exact Finset.mem_filter.mpr ⟨h.2.1 hk, hne⟩
        · simp [h.2.2]
  | page k => exact iff_of_true (h.of_sessions (fun _ => rfl) rfl rfl rfl rfl rfl) trivial
  | readFrom source dest => exact h.readFrom_iff source dest
  | requestMarketData id md exchangeId instrumentId =>
      exact iff_of_true (h.requestMarketData md exchangeId instrumentId) trivial
  | cancelMarketData id md exchangeId instrumentId =>
      exact iff_of_true (h.cancelMarketData md exchangeId instrumentId) trivial
  | subscribeStrategy id strat => exact h.subscribeStrategy_iff strat
  | unsubscribeStrategy id strat => exact h.unsubscribeStrategy_iff strat
  | issueOrder id orderId => exact iff_of_true (h.of_sessions (fun _ => rfl) rfl rfl rfl rfl rfl) trivial
  | strategyEvent source dest orderId =>
      exact iff_of_true (h.strategyEvent source dest orderId) trivial
  | cleanup id => exact h.cleanup_iff

end Steps

theorem delivers_start (homeUid : UInt32) : (start homeUid).Delivers := by
  constructor <;> simp [start]

/-- In every state of a run every subscriber is told of every order and trade, and what others rely
on is read, if and only if no trader becomes live while there are subscriptions to strategies to
which its channel is not read, no strategy that is dropped shares a channel with others, and every
channel that is to be joined has a page. -/
theorem delivers_iff (homeUid : UInt32) (ops : List Op) :
    Along step (fun s op => (s.step op).Delivers) (start homeUid) ops ↔
      Along step Joins (start homeUid) ops := by
  suffices hgen : ∀ s : ApiService, s.Delivers →
      (Along step (fun s op => (s.step op).Delivers) s ops ↔ Along step Joins s ops) from
    hgen _ (delivers_start homeUid)
  induction ops with
  | nil => exact fun _ _ => Iff.rfl
  | cons op ops ih =>
      intro s hs
      constructor
      · rintro ⟨hdelivers, hrest⟩
        exact ⟨hs.step_iff.mp hdelivers, (ih _ hdelivers).mp hrest⟩
      · rintro ⟨hjoins, hrest⟩
        have hdelivers := hs.step_iff.mpr hjoins
        exact ⟨hdelivers, (ih _ hdelivers).mpr hrest⟩

def exampleTd : Location := ⟨5, .TD, .LIVE, "sim", "account"⟩

def exampleStrategy : Location := ⟨9, .STRATEGY, .LIVE, "default", "demo"⟩

/-- A trader restarts while a client subscribes to a strategy. -/
def restartOps : List Op :=
  [.accept, .addLocation exampleTd, .addLocation exampleStrategy, .page ⟨5, 9⟩, .register 5,
    .subscribeStrategy 1 (some exampleStrategy), .deregister 5, .register 5]

/-- The client is told nothing more of what the trader writes to the strategy. -/
theorem not_delivers_of_restart : ¬ ((start 1).run restartOps).Delivers := by
  intro h
  have hsubscribed : ∃ c, ((start 1).run restartOps).sessions.lookup 1 = some c ∧
      9 ∈ c.subscribedStrategies := ⟨_, rfl, by decide⟩
  obtain ⟨c, hlookup, hmem⟩ := hsubscribed
  have hjoined := h.joined 1 c hlookup 9 hmem 5 (by decide) (by decide)
  revert hjoined
  decide

end ApiService

end Kungfu.Api
