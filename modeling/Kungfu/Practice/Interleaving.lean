import Kungfu.Practice.Startup

/-!
# What every order of steps keeps

The frames of the master are told from those of applications, and the cache alone says that it is
done.  The master reads journals of registered applications only, and an application that is not
the cache reads what is written to it, or to everybody.
-/

namespace Kungfu.Practice

open Longfist Yijinjing Index Outcome Log

variable {δ : Type}

/-- What only the master writes. -/
def Payload.IsMaster : Payload δ → Prop
  | .master _ => True
  | .request _ | .requestCached | .state _ => False

instance : DecidablePred (Payload.IsMaster (δ := δ))
  | .master _ => inferInstanceAs (Decidable True)
  | .request _ | .requestCached | .state _ => inferInstanceAs (Decidable False)

namespace Startup

variable {uids : List UInt32} {w : World δ} {uid : UInt32} {p : Process δ} {m m' : Master}

namespace World

/-! ## Frames -/

/-- Where messages of the master are written.  The start of an application, and what leads to it,
is written to its own journal. -/
def Addressed (uids : List UInt32) (dest : UInt32) : Message → Prop
  | .register _ => dest = PUBLIC ∨ dest ∈ uids
  | .deregister location => dest = PUBLIC ∧ location.uid ∈ uids
  | .mark .RequestStart | .mark .CachedReadyToRead => dest ∈ uids
  | .requestReadFrom sourceId _ => dest ∈ uids ∧ sourceId ∈ uids
  | _ => True

/-- The frames that are posted. -/
def Sane (uids : List UInt32) (item : Key × Payload δ) : Prop :=
  match item.2 with
  | .master message => item.1 = masterKey item.1.dest ∧ Addressed uids item.1.dest message
  | .request (.requestCachedDone destId) => item.1.location = cachedHome.uid ∧ destId ∈ uids
  | _ => item.1.location ∈ uids

/-- What an application may have in its outbox. -/
structure Posts (uids : List UInt32) (uid : UInt32) (item : Key × Payload δ) : Prop where
  location : item.1.location = uid
  not_isMaster : ¬ item.2.IsMaster
  done : ∀ destId, item.2 = .request (.requestCachedDone destId) → uid = cachedHome.uid ∧ destId ∈ uids

theorem Posts.sane {item : Key × Payload δ} (h : Posts uids uid item) (huid : uid ∈ uids) :
    Sane uids item := by
  obtain ⟨k, payload⟩ := item
  obtain ⟨rfl, hmaster, hdone⟩ := h
  cases payload with
  | master message => exact absurd trivial hmaster
  | request event =>
      cases event with
      | requestCachedDone destId => exact hdone destId rfl
      | _ => exact huid
  | requestCached => exact huid
  | state data => exact huid

theorem Sane.location {item : Key × Payload δ} (h : Sane uids item) (hcached : cachedHome.uid ∈ uids)
    (hitem : ¬ item.2.IsMaster) : item.1.location ∈ uids := by
  obtain ⟨k, payload⟩ := item
  cases payload with
  | master message => exact absurd trivial hitem
  | request event =>
      cases event with
      | requestCachedDone destId =>
          rw [h.1]
          exact hcached
      | _ => exact h
  | requestCached => exact h
  | state data => exact h

/-! ## The master -/

/-- The tables of the master. -/
structure Proper (uids : List UInt32) (m : Master) : Prop where
  consistent : m.Consistent
  joined : ∀ k ∈ m.joins, k.location ∈ m.registry
  registry : ∀ entry ∈ m.registry.entries, entry.2.location.uid = entry.1 ∧ entry.1 ∈ uids

/-- A frame that the master has written, and who is registered. -/
structure Told (uids : List UInt32) (m : Master) (x : Written) : Prop where
  addressed : Addressed uids x.dest x.message
  registered : ∀ register, x.message = .register register → register.location.uid ∈ m.registry

/-- What the master is after a run of its handlers. -/
structure Runs (uids : List UInt32) (m' : Master) : Prop extends Proper uids m' where
  told : ∀ x ∈ m'.written, Told uids m' x

theorem Proper.mem_uids (h : Proper uids m) (huid : uid ∈ m.registry) : uid ∈ uids := by
  obtain ⟨register, hentry⟩ := Table.exists_of_mem huid
  exact (h.registry _ hentry).2

theorem Proper.mem_registry (h : Proper uids m) {register : Register}
    (hentry : ∃ uid, ⟨uid, register⟩ ∈ m.registry.entries) : register.location.uid ∈ m.registry := by
  obtain ⟨uid, hentry⟩ := hentry
  rw [(h.registry _ hentry).1]
  exact Table.mem_of_mem_entries hentry

theorem Proper.issues (h : Proper uids m) (hwritten : m.written = []) {P : Written → Prop}
    (hissues : m.Issues P m') (hP : ∀ x, P x → Told uids m x) : Runs uids m' := by
  have hregistry := hissues.registry
  refine ⟨⟨hissues.consistent h.consistent, ?_, ?_⟩, ?_⟩
  · intro k hk
    rw [hregistry]
    exact (hissues.joined h.consistent k hk).elim (h.joined k) id
  · rw [hregistry]
    exact h.registry
  · obtain ⟨more, hmore, hpost⟩ := hissues.written
    rw [hmore, hwritten, List.nil_append]
    intro x hx
    obtain ⟨haddressed, hregistered⟩ := hP x (hpost x hx)
    exact ⟨haddressed, hregistry ▸ hregistered⟩

theorem Proper.told (h : Proper uids m) {source : UInt32} (hsource : source ∈ m.registry)
    {genTime : Int64} {event : Master.Event}
    (hdone : ∀ destId, event = .requestCachedDone destId → destId ∈ uids) {x : Written}
    (hx : m.Reply source genTime event x) : Told uids m x := by
  obtain ⟨dest, triggerTime, message⟩ := x
  cases message with
  | register register =>
      obtain ⟨hentry, hevent⟩ := hx
      refine ⟨.inr (hdone _ hevent), ?_⟩
      rintro _ ⟨⟩
      exact h.mem_registry hentry
  | deregister location => exact hx.elim
  | requestReadFrom sourceId fromTime =>
      refine ⟨?_, nofun⟩
      rcases hx with ⟨-, hdest, hsourceId, -⟩ | ⟨-, hdest, hsourceId⟩
      · exact ⟨h.mem_uids hdest, h.mem_uids (hsourceId ▸ hsource)⟩
      · exact ⟨h.mem_uids (hdest ▸ hsource), h.mem_uids hsourceId⟩
  | mark tag =>
      refine ⟨?_, nofun⟩
      cases tag with
      | RequestStart => exact hdone _ hx
      | CachedReadyToRead =>
          have hdest : dest = source := hx.1
          exact h.mem_uids (hdest ▸ hsource)
      | _ => trivial
  | _ => exact ⟨trivial, nofun⟩

theorem Proper.channels (h : Proper uids m) :
    ∀ entry ∈ m.channels.entries, entry.2.sourceId ∈ m.registry :=
  fun entry hentry => h.joined _ (h.consistent.joined entry hentry)

theorem Proper.frame (h : Proper uids m) (hwritten : m.written = []) {source : UInt32}
    (hsource : source ∈ m.registry) {genTime : Int64} {frameLength : UInt32} {clock : Clock}
    {event : Master.Event} (hdone : ∀ destId, event = .requestCachedDone destId → destId ∈ uids)
    (hstep : m.step (.frame source genTime frameLength clock event) = .ok m') : Runs uids m' :=
  h.issues hwritten
    ((Master.replies_step hsource h.channels genTime frameLength clock event).of_ok hstep)
    fun _ => h.told hsource hdone

theorem Proper.register (h : Proper uids m) (hwritten : m.written = []) {genTime : Int64} {clock : Clock}
    {register : Register} (huid : register.location.uid ∈ uids)
    (hstep : m.registerApp genTime clock register = .ok m') : Runs uids m' := by
  have henrolls := (Master.enrolls_registerApp m genTime clock register).of_ok hstep
  have hproper : Proper uids m' := by
    refine ⟨henrolls.consistent h.consistent, ?_, ?_⟩
    · intro k hk
      rcases henrolls.joined h.consistent k hk with hk | hk
      · exact henrolls.kept _ (h.joined k hk)
      · exact hk
    · intro entry hentry
      rcases henrolls.registry entry hentry with hentry | ⟨hkey, hlocation⟩
      · exact h.registry entry hentry
      · rw [hkey, hlocation]
        exact ⟨rfl, huid⟩
  refine ⟨hproper, ?_⟩
  obtain ⟨more, hmore, hnotice⟩ := henrolls.written
  rw [hmore, hwritten, List.nil_append]
  intro x hx
  have hnotice := hnotice x hx
  obtain ⟨dest, triggerTime, message⟩ := x
  cases message with
  | register register' =>
      obtain ⟨hentry, hdest⟩ := hnotice
      refine ⟨hdest.imp_right fun (hdest : dest = _) => hdest ▸ huid, ?_⟩
      rintro _ ⟨⟩
      exact hproper.mem_registry hentry
  | deregister location => exact hnotice.elim
  | requestReadFrom sourceId fromTime => exact hnotice.elim
  | channel channel => exact hnotice.elim
  | mark tag =>
      refine ⟨?_, nofun⟩
      cases tag with
      | RequestStart => exact hnotice.elim
      | CachedReadyToRead => exact hnotice.elim
      | _ => trivial
  | _ => exact ⟨trivial, nofun⟩

theorem Proper.deregister (h : Proper uids m) (hwritten : m.written = []) (hpublic : PUBLIC ∉ uids)
    {time : Int64} (huid : uid ∈ m.registry) (hstep : m.deregisterApp time uid = .ok m') :
    Runs uids m' := by
  obtain ⟨htables, location, hlocation, hmore⟩ := Master.written_deregisterApp h.consistent hstep
  have hne : uid ≠ PUBLIC := by
    rintro rfl
    exact hpublic (h.mem_uids huid)
  refine ⟨⟨?_, ?_, ?_⟩, ?_⟩
  · rw [htables]
    exact h.consistent.deregisterApp hne
  · rw [htables]
    intro k hk
    obtain ⟨fromTime, hentry⟩ := Table.exists_of_mem hk
    obtain ⟨hentry, hlocation⟩ := Table.mem_entries_eraseIf.mp hentry
    exact AList.mem_erase.mpr ⟨hlocation, h.joined k (Table.mem_of_mem_entries hentry)⟩
  · rw [htables]
    intro entry hentry
    exact h.registry entry ((List.kerase_sublist uid _).subset hentry)
  · rw [hmore, hwritten, List.nil_append]
    intro x hx
    rcases List.mem_pair.mp hx with rfl | rfl
    · exact ⟨trivial, nofun⟩
    · exact ⟨⟨rfl, hlocation ▸ h.mem_uids huid⟩, nofun⟩

/-- What the master writes on its own. -/
def IsChore (x : Written) : Prop :=
  match x.message with
  | .mark .Time | .timeReset _ _ | .tradingDay _ => True
  | _ => False

theorem issues_chore (m : Master) (chore : Chore) :
    Post (m.step chore.step) (m.Issues IsChore) fun _ => True := by
  cases chore with
  | active clock => exact Master.issues_handleTimerTasks (fun _ => trivial) m clock.now
  | publishTimeReset clock => exact Master.issues_write m trivial
  | publishTradingDay clock => exact Master.issues_write m trivial

theorem IsChore.told {x : Written} (hx : IsChore x) : Told uids m x := by
  obtain ⟨dest, triggerTime, message⟩ := x
  cases message with
  | mark tag =>
      refine ⟨?_, nofun⟩
      cases tag with
      | Time => trivial
      | _ => exact hx.elim
  | timeReset systemClockCount steadyClockCount => exact ⟨trivial, nofun⟩
  | tradingDay timestamp => exact ⟨trivial, nofun⟩
  | _ => exact hx.elim

/-! ## Applications -/

/-- What is known of a running application: who it is, what it reads and writes, and that it
started before what stands behind its position in the log. -/
structure Sound (uids : List UInt32) (log : List (Post Key Int64 (Payload δ))) (now : Int64)
    (uid : UInt32) (p : Process δ) : Prop where
  mem : uid ∈ uids
  home : p.state.home.uid = uid
  known : p.state.Known
  written : p.state.written = []
  joined : ∀ k, (p.inbox k).isSome ↔ k ∈ p.state.joins
  bound : ∀ k n, p.inbox k = some n → n ≤ log.length
  dests : uid ≠ cachedHome.uid → ∀ k ∈ p.state.joins, k.dest = uid ∨ k.dest = PUBLIC ∨ k.dest = SYNC
  outbox : ∀ item ∈ p.outbox, Posts uids uid item
  since : p.since ≤ log.length
  begun : p.state.beginTime ≤ now
  late : ∀ j post, p.since ≤ j → log[j]? = some post → p.state.beginTime ≤ post.time

variable {log : List (Post Key Int64 (Payload δ))} {now : Int64}

theorem Sound.isCached (h : Sound uids log now uid p) :
    p.state.isCached = true ↔ uid = cachedHome.uid := by
  simp [App.isCached, h.home]

/-- A post is added to the log. -/
theorem Sound.post (h : Sound uids log now uid p) {item : Key × Payload δ} {time : Int64}
    (htime : now < time) : Sound uids (log ++ [⟨item.1, time, item.2⟩]) time uid p := by
  refine { h with bound := ?_, since := ?_, begun := ?_, late := ?_ }
  · intro k n hn
    have hbound := h.bound k n hn
    simp only [List.length_append, List.length_singleton]
    omega
  · have hsince := h.since
    simp only [List.length_append, List.length_singleton]
    omega
  · exact Int64.le_trans h.begun (Int64.le_of_lt htime)
  · intro j post hj hpost
    rcases getElem?_post hpost with hpost | ⟨-, rfl⟩
    · exact h.late j post hj hpost
    · exact Int64.le_trans h.begun (Int64.le_of_lt htime)

/-- Time goes on. -/
theorem Sound.wait (h : Sound uids log now uid p) {time : Int64} (htime : now < time) :
    Sound uids log time uid p :=
  { h with begun := Int64.le_trans h.begun (Int64.le_of_lt htime) }

/-- What an application writes because of a frame. -/
theorem posts_outputs {a : App δ} (huid : uid ∈ uids) (hhome : a.home.uid = uid)
    {item : Key × Payload δ} (hsane : Sane uids item) {answer : List δ} {x : UInt32 × Payload δ}
    (hx : x ∈ a.outputs answer item.1.location item.2) : Posts uids uid (⟨uid, x.1⟩, x.2) := by
  have hcached : a.isCached = true → uid = cachedHome.uid := by simp [App.isCached, hhome]
  have hwrites := App.writes_of_mem hx
  obtain ⟨dest, payload⟩ := x
  cases hwrites with
  | done hc hasks =>
      refine ⟨rfl, id, ?_⟩
      rintro destId ⟨⟩
      exact ⟨hcached hc, hhome ▸ huid⟩
  | answered hc hrequest =>
      refine ⟨rfl, id, ?_⟩
      rintro destId ⟨⟩
      rw [Sane, hrequest] at hsane
      exact ⟨hcached hc, hsane⟩
  | _ => exact ⟨rfl, id, nofun⟩

/-- An application that is not the cache joins what is written to it, or to everybody. -/
theorem dest_of_joins {a : App δ} (hcached : ¬ a.isCached = true) {payload : Payload δ} {k : Key}
    {fromTime : Int64} (h : a.Joins payload k fromTime) :
    k.dest = a.home.uid ∨ k.dest = PUBLIC ∨ k.dest = SYNC := by
  cases payload with
  | master message =>
      cases message with
      | register register =>
          rcases h with ⟨-, rfl, -⟩ | ⟨hc, -⟩
          · exact .inl rfl
          · exact absurd hc hcached
      | requestReadFrom source fromTime' =>
          rw [h.1]
          exact .inl rfl
      | requestReadFromPublic source fromTime' => exact .inr (.inl h)
      | requestReadFromSync source fromTime' => exact .inr (.inr h)
      | channel channel => exact absurd h.1 hcached
      | _ => exact h.elim
  | _ => exact h.elim

theorem Sound.post_react (h : Sound uids log now uid p) (post : Post Key Int64 (Payload δ))
    (answer : List δ) :
    Outcome.Post ((p.state.observe post.time).react answer post.key post.time post.message)
      (App.Moves answer post.key post.message (p.state.observe post.time))
      (App.Fails (p.state.observe post.time) post.message post.key.location) := by
  have hknown : (p.state.observe post.time).Known := ⟨h.known.keyed, h.known.cmd, h.known.cached⟩
  exact App.post_react hknown post.message

/-- An application after it has read a post. -/
theorem Sound.read (h : Sound uids log now uid p) {i : ℕ} {post : Post Key Int64 (Payload δ)}
    (hnext : p.inbox.next log = some (i, post)) (hsane : Sane uids post.item) {answer : List δ}
    {a : App δ} (ha : App.Moves answer post.key post.message (p.state.observe post.time) a) :
    Sound uids log now uid { p with
      state := { a with written := [] }
      inbox := (p.inbox.take post.key i).adjust log a.joins.lookup
      outbox := p.outbox ++ a.written.map fun x => (⟨uid, x.1⟩, x.2) } where
  mem := h.mem
  home := (congrArg Location.uid ha.home).trans h.home
  known := ⟨ha.known.keyed, ha.known.cmd, ha.known.cached⟩
  written := rfl
  joined k := by rw [Inbox.isSome_adjust, AList.lookup_isSome]
  bound k n hn := by
    have htake : ∀ k n, p.inbox.take post.key i k = some n → n ≤ log.length :=
      fun k n => Inbox.le_length_of_take hnext h.bound
    have hadjust : (p.inbox.take post.key i).adjust log (fun k => a.joins.lookup k) k = some n := hn
    exact Inbox.le_length_of_adjust htake hadjust
  dests hne k hk := by
    obtain ⟨fromTime, hentry⟩ := Table.exists_of_mem hk
    rcases ha.joined k fromTime (AList.mem_lookup_iff.mpr hentry) with hold | ⟨-, hjoins⟩
    · refine h.dests hne k (AList.lookup_isSome.mp ?_)
      exact Option.isSome_iff_exists.mpr ⟨fromTime, hold⟩
    · have hcached : ¬ (p.state.observe post.time).isCached = true := fun hc =>
        hne (h.isCached.mp hc)
      exact h.home ▸ dest_of_joins hcached hjoins
  outbox item hitem := by
    rcases List.mem_append.mp hitem with hitem | hitem
    · exact h.outbox item hitem
    · obtain ⟨x, hx, rfl⟩ := List.mem_map.mp hitem
      have hwritten : (p.state.observe post.time).written = [] := h.written
      rw [ha.written, hwritten, List.nil_append] at hx
      have hhome : (p.state.observe post.time).home.uid = uid := h.home
      exact posts_outputs h.mem hhome hsane hx
  since := h.since
  begun := by
    have hbegin : a.beginTime = p.state.beginTime := ha.beginTime
    exact hbegin ▸ h.begun
  late j post' hj hpost := by
    have hbegin : a.beginTime = p.state.beginTime := ha.beginTime
    exact hbegin ▸ h.late j post' hj hpost

/-! ## All processes -/

/-- What is known of all processes. -/
structure Base (uids : List UInt32) (w : World δ) : Prop where
  master : Proper uids w.master.state
  written : w.master.state.written = []
  inbox : ∀ k, (w.master.inbox k).isSome → k ∈ w.master.state.joins
  log : ∀ post ∈ w.log, Sane uids post.item
  outbox : ∀ item ∈ w.master.outbox, Sane uids item ∧ item.2.IsMaster
  registered : ∀ k register, (k, .master (.register register)) ∈ w.master.outbox →
    register.location.uid ∈ w.master.state.registry
  apps : ∀ uid p, w.apps uid = some p → Sound uids w.log w.now uid p

theorem Base.masterRuns (h : Base uids w) (inbox : Inbox Key) {run : Master → Except Fault Master}
    (hrun : ∀ m, run w.master.state = .ok m → Runs uids m) : Base uids (w.masterRuns inbox run) := by
  unfold World.masterRuns
  cases hm : run w.master.state with
  | error fault => exact ⟨h.master, h.written, h.inbox, h.log, h.outbox, h.registered, h.apps⟩
  | ok m =>
      obtain ⟨hproper, htold⟩ := hrun m hm
      refine ⟨⟨hproper.consistent, hproper.joined, hproper.registry⟩, rfl, ?_, h.log, ?_, ?_, h.apps⟩
      · intro k hk
        rwa [Inbox.isSome_adjust, AList.lookup_isSome] at hk
      · intro item hitem
        obtain ⟨x, hx, rfl⟩ := List.mem_map.mp hitem
        exact ⟨⟨rfl, (htold x hx).addressed⟩, trivial⟩
      · intro k register hitem
        obtain ⟨x, hx, heq⟩ := List.mem_map.mp hitem
        obtain ⟨-, heq⟩ := Prod.mk.inj heq
        exact (htold x hx).registered register (Payload.master.inj heq)

/-- Time goes on. -/
theorem Base.wait (h : Base uids w) {time : Int64} (htime : w.now < time) :
    Base uids { w with now := time } :=
  ⟨h.master, h.written, h.inbox, h.log, h.outbox, h.registered,
    fun uid p hp => (h.apps uid p hp).wait htime⟩

/-- One process is another one. -/
theorem Base.update (h : Base uids w) {process : Option (Process δ)}
    (hprocess : ∀ p, process = some p → Sound uids w.log w.now uid p) (uid' : UInt32) (p' : Process δ)
    (hp' : Function.update w.apps uid process uid' = some p') : Sound uids w.log w.now uid' p' := by
  by_cases huid : uid' = uid
  · subst huid
    rw [Function.update_self] at hp'
    exact hprocess p' hp'
  · rw [Function.update_of_ne huid] at hp'
    exact h.apps uid' p' hp'

theorem Base.appReads (h : Base uids w) (hp : w.apps uid = some p) (answer : List δ) :
    Base uids (w.appReads uid p answer) := by
  have hsound := h.apps uid p hp
  unfold World.appReads
  cases hnext : p.inbox.next w.log with
  | none => exact h
  | some read =>
      obtain ⟨i, post⟩ := read
      have hsane := h.log post (List.mem_of_getElem? (Inbox.next_eq_some.mp hnext).1)
      simp only [World.appRuns]
      cases ha : (p.state.observe post.time).react answer post.key post.time post.message with
      | error fault =>
          refine ⟨h.master, h.written, h.inbox, h.log, h.outbox, h.registered, h.update ?_⟩
          rintro _ ⟨⟩
      | ok a =>
          refine ⟨h.master, h.written, h.inbox, h.log, h.outbox, h.registered, h.update ?_⟩
          rintro _ ⟨⟩
          exact hsound.read hnext hsane ((hsound.post_react post answer).of_ok ha)

/-- A frame is published. -/
theorem Base.publish (h : Base uids w) {item : Key × Payload δ} {time : Int64} (htime : w.now < time)
    (hitem : Sane uids item) : Base uids (w.publish time item) where
  master := h.master
  written := h.written
  inbox := h.inbox
  log post hpost := by
    rcases List.mem_append.mp hpost with hpost | hpost
    · exact h.log post hpost
    · rw [List.mem_singleton.mp hpost]
      exact hitem
  outbox := h.outbox
  registered := h.registered
  apps uid p hp := (h.apps uid p hp).post htime

/-- What an application writes of its own. -/
theorem posts_own {dest : UInt32} {payload : Payload δ} (h : IsOwn uid dest payload) :
    Posts uids uid (⟨uid, dest⟩, payload) := by
  refine ⟨rfl, ?_, ?_⟩
  · intro hmaster
    cases payload with
    | master message => exact h
    | _ => exact hmaster
  · rintro destId ⟨⟩
    exact h.elim

theorem Base.masterReads (h : Base uids w) {i : ℕ} {post : Post Key Int64 (Payload δ)}
    (hnext : w.master.inbox.next w.log = some (i, post)) {inbox : Inbox Key} {frameLength : UInt32}
    {clock : Clock} :
    Base uids (w.masterRuns inbox fun m =>
      m.step (.frame post.key.location post.time frameLength clock post.message.event)) := by
  obtain ⟨hpost, ⟨n, hn, -⟩, -⟩ := Inbox.next_eq_some.mp hnext
  have hsource : post.key.location ∈ w.master.state.registry :=
    h.master.joined _ (h.inbox _ (Option.isSome_iff_exists.mpr ⟨n, hn⟩))
  refine h.masterRuns inbox fun m hm => h.master.frame h.written hsource ?_ hm
  intro destId hevent
  have hsane := h.log post (List.mem_of_getElem? hpost)
  obtain ⟨k, time, message⟩ := post
  cases message with
  | request event =>
      cases hevent
      exact hsane.2
  | _ => cases hevent

/-- A process that starts. -/
theorem sound_start {home : Location} {log : List (Post Key Int64 (Payload δ))} {time : Int64}
    (huid : home.uid ∈ uids) :
    Sound uids log time home.uid {
      state := App.start home time
      inbox := fun k => if k = masterKey PUBLIC then some log.length else none
      outbox := []
      since := log.length } where
  mem := huid
  home := rfl
  known := App.known_start home time
  written := rfl
  joined k := by
    by_cases hk : k = masterKey PUBLIC
    · simp [hk, App.start, masterKey, writerLocation, AList.mem_keys]
    · have hne : k ≠ ⟨masterHome.uid, PUBLIC⟩ := hk
      simp [hk, hne, App.start, AList.mem_keys]
  bound k n hn := by
    simp only [Option.ite_none_right_eq_some, Option.some.injEq] at hn
    omega
  dests _ k hk := by
    have hkey : k = ⟨masterHome.uid, PUBLIC⟩ := by simpa [App.start, AList.mem_keys] using hk
    exact .inr (.inl (congrArg Key.dest hkey))
  outbox := nofun
  since := Nat.le_refl _
  begun := Int64.le_refl _
  late j post hj hpost := by
    have hlt := (List.getElem?_eq_some_iff.mp hpost).1
    exact absurd hlt (Nat.not_lt.mpr hj)

theorem Base.masterPublishes (h : Base uids w) {time : Int64} (htime : w.now < time)
    {item : Key × Payload δ} {outbox : List (Key × Payload δ)}
    (hitems : w.master.outbox = item :: outbox) :
    Base uids ({ w with master := { w.master with outbox := outbox } }.publish time item) := by
  have hmem : ∀ x ∈ outbox, x ∈ w.master.outbox := fun x hx => hitems ▸ List.mem_cons_of_mem item hx
  have hrest : Base uids { w with master := { w.master with outbox := outbox } } :=
    ⟨h.master, h.written, h.inbox, h.log, fun x hx => h.outbox x (hmem x hx),
      fun k register hx => h.registered k register (hmem _ hx), h.apps⟩
  exact hrest.publish htime (h.outbox item (hitems ▸ List.mem_cons_self)).1

/-- A process goes on, and nothing else changes. -/
theorem Base.goesOn (h : Base uids w) {uid : UInt32} {p : Process δ}
    (hsound : Sound uids w.log w.now uid p) :
    Base uids { w with apps := Function.update w.apps uid (some p) } := by
  refine ⟨h.master, h.written, h.inbox, h.log, h.outbox, h.registered, h.update ?_⟩
  rintro _ ⟨⟩
  exact hsound

theorem Base.notices (h : Base uids w) {uid : UInt32} {p : Process δ} (hp : w.apps uid = some p) :
    Base uids { w with
      apps := Function.update w.apps uid (some { p with state := p.state.observe w.now }) } := by
  have hsound := h.apps uid p hp
  exact h.goesOn { hsound with known := ⟨hsound.known.keyed, hsound.known.cmd, hsound.known.cached⟩ }

theorem Base.writes (h : Base uids w) {uid dest : UInt32} {payload : Payload δ} {p : Process δ}
    (hp : w.apps uid = some p) (hown : IsOwn uid dest payload) :
    Base uids { w with apps := Function.update w.apps uid (some { p with
      outbox := p.outbox ++ [(⟨uid, dest⟩, payload)] }) } := by
  have hsound := h.apps uid p hp
  refine h.goesOn { hsound with outbox := fun item hitem => ?_ }
  rcases List.mem_append.mp hitem with hitem | hitem
  · exact hsound.outbox item hitem
  · rw [List.mem_singleton.mp hitem]
    exact posts_own hown

theorem Base.publishes (h : Base uids w) {uid : UInt32} {time : Int64} (htime : w.now < time)
    {p : Process δ} (hp : w.apps uid = some p) {item : Key × Payload δ}
    {outbox : List (Key × Payload δ)} (hitems : p.outbox = item :: outbox) :
    Base uids ({ w with apps := Function.update w.apps uid (some { p with outbox := outbox }) }.publish
      time item) := by
  have hsound := h.apps uid p hp
  have hrest := h.goesOn (p := { p with outbox := outbox })
    { hsound with outbox := fun x hx => hsound.outbox x (hitems ▸ List.mem_cons_of_mem item hx) }
  exact hrest.publish htime ((hsound.outbox item (hitems ▸ List.mem_cons_self)).sane hsound.mem)

theorem Base.step (hapart : Apart uids) (h : Base uids w) {s : Step δ}
    (hs : ∀ home time, s = .start home time → home.uid ∈ uids) : Base uids (w.step s) := by
  obtain heq | hfires := w.step_eq_or_fires s
  · rwa [heq]
  generalize w.step s = w' at hfires ⊢
  cases hfires with
  | start home time hdead htime =>
      refine ⟨h.master, h.written, h.inbox, h.log, h.outbox, h.registered, (h.wait htime).update ?_⟩
      rintro _ ⟨⟩
      exact sound_start (hs home time rfl)
  | stop uid => exact ⟨h.master, h.written, h.inbox, h.log, h.outbox, h.registered, h.update nofun⟩
  | register register genTime clock hready hchecks =>
      obtain ⟨happ, htime⟩ := hchecks
      obtain ⟨p, hp, hhome⟩ := (Option.any_eq_true _ _).mp happ
      have huid : register.location.uid ∈ uids := (h.apps _ p hp).mem
      exact (h.wait htime).masterRuns _ fun m hm => h.master.register h.written huid hm
  | deregister uid time hready hdead =>
      exact h.masterRuns _ fun m hm => h.master.deregister h.written hapart.reserved.1 hdead.2 hm
  | masterReads frameLength clock i post hready hnext => exact h.masterReads hnext
  | masterDoes chore hready =>
      refine h.masterRuns _ fun m hm => ?_
      exact h.master.issues h.written ((issues_chore _ chore).of_ok hm) fun _ => IsChore.told
  | masterPublishes time item outbox hitems htime => exact h.masterPublishes htime hitems
  | reads uid answer p hp hempty => exact h.appReads hp answer
  | notices uid p hp => exact h.notices hp
  | writes uid dest payload p hp hwriter hown => exact h.writes hp hown
  | publishes uid time p item outbox hp hitems htime => exact h.publishes htime hp hitems

end World

end Startup

end Kungfu.Practice
