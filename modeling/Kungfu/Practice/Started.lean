import Kungfu.Logic.Run
import Kungfu.Practice.Handshake

/-!
# Applications that have started

An application that has started has in its bank all that the cache has answered first, in every run
of the master and its applications.
-/

namespace Kungfu.Practice.Startup

open Longfist Yijinjing Index Outcome Logic Log

variable {δ : Type} {uids : List UInt32} {uid u : UInt32} {w w' : World δ} {p : Process δ}

namespace World

/-- What holds of all processes, and of the application of interest while it runs. -/
structure Tracked (uids : List UInt32) (uid : UInt32) (w : World δ) : Prop where
  base : Base uids w
  starting : ∀ p, w.apps uid = some p → w.Starting uid p.progress

/-! ## A new application -/

theorem concerns_of_dest {dest : UInt32} {payload : Payload δ} :
    Concerns dest (masterKey dest, payload) := .inr (.inl rfl)

theorem Reads.concerns {item : Key × Payload δ} (h : Reads uid item) : Concerns uid item :=
  .inr (.inl (congrArg Key.dest h.1))

theorem IsStart.concerns {item : Key × Payload δ} (h : IsStart uid item) : Concerns uid item := by
  rw [show item = _ from h]
  exact concerns_of_dest

theorem IsReady.concerns {item : Key × Payload δ} (h : IsReady uid item) : Concerns uid item := by
  rw [show item = _ from h]
  exact concerns_of_dest

/-- An application starts afresh. -/
theorem starting_start (hapart : Apart uids) (hbase : Base uids w) {home : Location}
    (hfresh : w.Fresh home.uid) {time : Int64} (hlog : w'.log = w.log) (hmaster : w'.master = w.master)
    (houtbox : w'.outbox home.uid = []) (hcached : w'.outbox cachedHome.uid = w.outbox cachedHome.uid)
    (hanswers : w'.answers home.uid = []) (hmet : w.Met → w'.Met) :
    w'.Starting home.uid (Process.progress {
      state := App.start home time
      inbox := fun k => if k = masterKey PUBLIC then some w.log.length else none
      outbox := []
      since := w.log.length }) := by
  have htold : w'.told w.log.length = w.master.outbox := by
    rw [told, hlog, hmaster, List.drop_length, sent]
    rfl
  have hself : ∀ x, x ∉ w'.said home.uid w.log.length := by
    rw [said, hlog, houtbox, List.drop_length, sent]
    exact fun x => List.not_mem_nil
  have hsaid : w'.said cachedHome.uid w.log.length = w.outbox cachedHome.uid := by
    rw [said, hlog, hcached, List.drop_length, sent]
    rfl
  have hnone : ∀ {j : ℕ} {post : Post Key Int64 (Payload δ)}, w'.log[j]? = some post →
      ¬ Concerns home.uid post.item := fun hpost =>
    hfresh.log _ (List.mem_of_getElem? (hlog ▸ hpost))
  have hempty : w'.answers home.uid ≠ [] → False := fun hne => hne hanswers
  constructor
  case late => exact fun j post hpost hconcerns => absurd hconcerns (hnone hpost)
  case joined => exact ⟨w.log.length, by simp [Process.progress], Nat.le_refl _⟩
  case met =>
    rintro ⟨k, payload⟩ hitem ⟨register, rfl, hregister⟩
    exact hmet (.inl (hregister ▸ hbase.registered k register (htold ▸ hitem)))
  case asked => exact fun k fromTime hitem => (hself _ hitem).elim
  case ready =>
    refine preceded_of_forall_not fun item hitem hready => ?_
    exact hfresh.master item (htold ▸ hitem) hready.concerns
  case leaves =>
    refine preceded_of_prefix fun before hbefore hreads => ?_
    obtain ⟨item, hitem, hreads⟩ := hreads
    exact absurd hreads.concerns (hfresh.master item (htold ▸ hbefore.subset hitem))
  case starts =>
    refine preceded_of_forall_not fun item hitem hstart => ?_
    exact hfresh.master item (htold ▸ hitem) hstart.concerns
  case done =>
    refine preceded_of_forall_not fun item hitem hdone => ?_
    exact hfresh.cached item (hsaid ▸ hitem) (.inr (.inr hdone))
  case first =>
    intro answer rest hanswer
    rw [hanswers] at hanswer
    cases hanswer
  case silent =>
    refine fun _ => List.filterMap_eq_nil_iff.mpr fun item hitem => ?_
    refine if_neg fun hkey => ?_
    exact hfresh.cached item (hsaid ▸ hitem) (.inr (.inl (congrArg Key.dest hkey)))
  case requested => exact fun hne => (hempty hne).elim
  case posted => exact fun j post hpost hstart => absurd hstart.concerns (hnone hpost)
  case pending =>
    intro hitem
    exact absurd concerns_of_dest (hfresh.master _ (hmaster ▸ hitem))
  case stage =>
    have hkey : answerKey home.uid ≠ masterKey PUBLIC := by
      intro hkey
      have hlocation : cachedHome.uid = (masterKey PUBLIC).location := congrArg Key.location hkey
      exact location_masterKey hapart (.inl rfl) (hlocation ▸ hapart.cached)
    refine fun _ => .inl ⟨rfl, ?_, ?_, ?_⟩
    · simp [Process.progress, hkey]
    · exact fun k hitem => hself _ hitem
    · exact fun j post hpost hreads => absurd hreads.concerns (hnone hpost)
  case unread => exact fun _ j post hpost hstart => absurd hstart.concerns (hnone hpost)
  case started =>
    intro hstarted
    cases hstarted

/-! ## Frames are published -/

section Publish

variable {item : Key × Payload δ} {time : Int64} {since : ℕ}

/-- What was to be posted of a kind is posted. -/
theorem sent_publish {P : Key × Payload δ → Prop} [DecidablePred P] {outbox : List (Key × Payload δ)}
    (hlog : w'.log = w.log ++ [⟨item.1, time, item.2⟩]) (hsince : since ≤ w.log.length) (hitem : P item) :
    sent P (w'.log.drop since) outbox = sent P (w.log.drop since) (item :: outbox) := by
  rw [hlog, List.drop_append_of_le_length hsince, sent_post hitem]

theorem sent_publish_of_not {P : Key × Payload δ → Prop} [DecidablePred P]
    {outbox : List (Key × Payload δ)} (hlog : w'.log = w.log ++ [⟨item.1, time, item.2⟩])
    (hsince : since ≤ w.log.length) (hitem : ¬ P item) :
    sent P (w'.log.drop since) outbox = sent P (w.log.drop since) outbox := by
  rw [hlog, List.drop_append_of_le_length hsince]
  exact sent_post_of_not hitem

/-- A frame of somebody else is published. -/
theorem said_publish (hlog : w'.log = w.log ++ [⟨item.1, time, item.2⟩]) (hsince : since ≤ w.log.length)
    (houtbox : w'.outbox u = w.outbox u) (hitem : ¬ (item.1.location = u ∧ ¬ item.2.IsMaster)) :
    w'.said u since = w.said u since := by
  rw [said, houtbox]
  exact sent_publish_of_not hlog hsince hitem

end Publish

theorem Tracked.masterPublishes (h : Tracked uids uid w) {item : Key × Payload δ}
    {outbox : List (Key × Payload δ)} (hitems : w.master.outbox = item :: outbox) {time : Int64}
    (hp : w.apps uid = some p) :
    ({ w with master := { w.master with outbox := outbox } }.publish time item).Starting uid p.progress := by
  have hsound := h.base.apps uid p hp
  have hmaster : item.2.IsMaster := (h.base.outbox item (hitems ▸ List.mem_cons_self)).2
  have hsaid : ∀ u, ({ w with master := { w.master with outbox := outbox } }.publish time item).said u
      p.since = w.said u p.since := fun u =>
    said_publish rfl hsound.since rfl fun hitem => hitem.2 hmaster
  refine (h.starting p hp).post rfl hsound.since hsound.bound rfl id id id ?_ (hsaid uid)
    (hsaid cachedHome.uid) ?_ ?_
  · rw [told, told, hitems]
    exact sent_publish rfl hsound.since hmaster
  · exact fun x hx => hitems ▸ List.mem_cons_of_mem item hx
  · exact fun _ => hitems ▸ List.mem_cons_self

theorem apps_eq_none_of_update {q q' : Process δ} (hq : w.apps u = some q)
    (happs : w'.apps = Function.update w.apps u (some q')) (v : UInt32) :
    w'.apps v = none ↔ w.apps v = none := by
  rw [happs]
  by_cases hv : v = u
  · subst hv
    simp [hq]
  · rw [Function.update_of_ne hv]

theorem exists_of_update {q q' : Process δ} (hq : w.apps u = some q) (hprogress : q'.progress = q.progress)
    (happs : w'.apps = Function.update w.apps u (some q')) (hp : w'.apps uid = some p) :
    ∃ r, w.apps uid = some r ∧ p.progress = r.progress := by
  rw [happs] at hp
  by_cases hu : uid = u
  · subst hu
    rw [Function.update_self, Option.some.injEq] at hp
    exact ⟨q, hq, hp ▸ hprogress⟩
  · rw [Function.update_of_ne hu] at hp
    exact ⟨p, hp, rfl⟩

theorem Tracked.publishes (h : Tracked uids uid w) {q q' : Process δ} (hq : w.apps u = some q)
    {item : Key × Payload δ} (hitems : q.outbox = item :: q'.outbox)
    (hprogress : q'.progress = q.progress) {time : Int64}
    (hlog : w'.log = w.log ++ [⟨item.1, time, item.2⟩]) (hmaster : w'.master = w.master)
    (hanswers : w'.answers = w.answers) (happs : w'.apps = Function.update w.apps u (some q'))
    (hp : w'.apps uid = some p) : w'.Starting uid p.progress := by
  obtain ⟨r, hr, heq⟩ := exists_of_update hq hprogress happs hp
  rw [heq]
  have hsound := h.base.apps uid r hr
  have hposts := (h.base.apps u q hq).outbox item (hitems ▸ List.mem_cons_self)
  have halive := apps_eq_none_of_update hq happs cachedHome.uid
  have hsaid : ∀ v, w'.said v r.since = w.said v r.since := by
    intro v
    by_cases hv : v = u
    · subst hv
      have hold : w.outbox v = item :: q'.outbox := by
        rw [World.outbox, hq, ← hitems]
        rfl
      rw [said, said, hold, outbox_of_update happs]
      exact sent_publish hlog hsound.since ⟨hposts.location, hposts.not_isMaster⟩
    · refine said_publish hlog hsound.since (outbox_of_update_of_ne happs hv) fun hitem => ?_
      exact hv (hitem.1.symm.trans hposts.location)
  refine (h.starting r hr).post hlog hsound.since hsound.bound hanswers ?_ ?_ ?_ ?_ (hsaid uid)
    (hsaid cachedHome.uid) ?_ ?_
  · exact Or.imp (hmaster ▸ id) halive.mpr
  · exact And.imp (hmaster ▸ id) halive.mpr
  · exact fun hne hnone => hne (halive.mpr hnone)
  · rw [told, told, hmaster]
    exact sent_publish_of_not hlog hsound.since hposts.not_isMaster
  · rw [hmaster]
    exact fun x hx => hx
  · intro hstart
    refine absurd ?_ hposts.not_isMaster
    rw [show item = _ from hstart]
    trivial

/-! ## Frames are read -/

/-- What an application writes because of a frame, unless the cache answers to the application of
interest. -/
theorem not_concerns_of_outputs {a : App δ} (hne : uid ≠ cachedHome.uid) (hhome : a.home.uid = u)
    (hu : u = cachedHome.uid) {answer : List δ} {source : UInt32} {payload : Payload δ}
    (hother : ¬ (payload = .requestCached ∧ source = uid ∧ uid ∈ a.locations))
    {x : UInt32 × Payload δ} (hx : x ∈ a.outputs answer source payload) :
    ¬ IsDone uid (⟨u, x.1⟩, x.2) ∧ answerIn uid (⟨u, x.1⟩, x.2) = none := by
  have hsource : payload = .requestCached → source ≠ uid := by
    rintro rfl rfl
    have hlocation : source ∉ a.locations := fun hmem => hother ⟨rfl, rfl, hmem⟩
    simp [App.outputs, hlocation] at hx
  have hwrites := App.writes_of_mem hx
  obtain ⟨dest, payload'⟩ := x
  cases hwrites with
  | done hc hasks =>
      refine ⟨fun hdone => ?_, by simp [answerIn, Payload.data?]⟩
      cases hdone
      exact hne (hhome.trans hu)
  | answer hc hrequest data =>
      exact ⟨by simp [IsDone], if_neg fun hkey => hsource hrequest (congrArg Key.dest hkey)⟩
  | answered hc hrequest =>
      refine ⟨fun hdone => ?_, by simp [answerIn, Payload.data?]⟩
      cases hdone
      exact hsource hrequest rfl
  | _ => exact ⟨by simp [IsDone], by simp [answerIn, Payload.data?]⟩

section Reads

variable {i : ℕ} {post : Post Key Int64 (Payload δ)} {answer : List δ}

/-- The cache answers to nobody else. -/
theorem answered_of_not
    (hother : ¬ (p.state.isCached = true ∧ post.message = .requestCached ∧ post.key.location = uid ∧
      uid ∈ p.state.locations)) : w.answered p post answer uid = w.answers uid := by
  cases hrequest : post.message with
  | requestCached =>
      simp only [answered, hrequest]
      split
      · rename_i hcached
        refine Function.update_of_ne (fun heq => ?_) _ _
        exact hother ⟨hcached.1, hrequest, heq.symm, heq ▸ hcached.2⟩
      · rfl
  | _ => simp only [answered, hrequest]

theorem answered_eq (hcached : ¬ p.state.isCached = true) : w.answered p post answer = w.answers :=
  funext fun _ => answered_of_not fun h => hcached h.1

/-- The answer of the cache to the application of interest. -/
theorem answered_self (hcached : p.state.isCached = true) (hrequest : post.message = .requestCached)
    (hlocation : post.key.location = uid) (hknown : uid ∈ p.state.locations) :
    w.answered p post answer uid = w.answers uid ++ [answer] := by
  subst hlocation
  simp [answered, hrequest, hcached, hknown]

/-- What a process is after it has read a post. -/
def Became (w : World δ) (u : UInt32) (q : Process δ) (i : ℕ) (post : Post Key Int64 (Payload δ))
    (answer : List δ) (q' : Process δ) : Prop :=
  (∃ a, App.Moves answer post.key post.message (q.state.observe post.time) a ∧
    q'.progress = readsTo w q i post a) ∧
  q'.outbox = q.outbox ++
    ((q.state.observe post.time).outputs answer post.key.location post.message).map
      fun x => (⟨u, x.1⟩, x.2)

theorem appReads_apps_of_ne {q : Process δ} (hu : uid ≠ u) :
    (w.appReads u q answer).apps uid = w.apps uid := by
  unfold World.appReads World.appRuns
  split
  · rfl
  · split <;> exact Function.update_of_ne hu _ _

variable (answer) in
/-- What a read changes. -/
theorem appReads_spec {q : Process δ} (hsound : Sound uids w.log w.now u q)
    (hnext : q.inbox.next w.log = some (i, post)) :
    (w.appReads u q answer).log = w.log ∧ (w.appReads u q answer).master = w.master ∧
      (w.appReads u q answer).answers = w.answered q post answer ∧
      ∃ process, (w.appReads u q answer).apps = Function.update w.apps u process ∧
        ∀ q', process = some q' → w.Became u q i post answer q' := by
  unfold World.appReads
  simp only [hnext, World.appRuns]
  cases ha : (q.state.observe post.time).react answer post.key post.time post.message with
  | error fault =>
      refine ⟨rfl, rfl, rfl, none, rfl, ?_⟩
      rintro _ ⟨⟩
  | ok a =>
      have hmoves := (hsound.post_react post answer).of_ok ha
      have hwritten : a.written =
          (q.state.observe post.time).outputs answer post.key.location post.message := by
        rw [hmoves.written, App.observe_written, hsound.written, List.nil_append]
      refine ⟨rfl, rfl, rfl, _, rfl, ?_⟩
      rintro _ ⟨⟩
      exact ⟨⟨a, hmoves, rfl⟩, by rw [← hwritten]⟩

/-- The application of interest reads. -/
theorem Tracked.reads_self (hapart : Apart uids) (hne : uid ≠ cachedHome.uid) (h : Tracked uids uid w)
    (hp : w.apps uid = some p) {p' : Process δ} (hp' : (w.appReads uid p answer).apps uid = some p') :
    (w.appReads uid p answer).Starting uid p'.progress := by
  have hsound := h.base.apps uid p hp
  cases hnext : p.inbox.next w.log with
  | none =>
      unfold World.appReads at hp' ⊢
      rw [hnext] at hp' ⊢
      exact h.starting p' hp'
  | some read =>
      obtain ⟨i, post⟩ := read
      obtain ⟨hlog, hmaster, hanswers, process, happs, hprocess⟩ :=
        appReads_spec answer hsound hnext
      have hself : process = some p' := by rw [← hp', happs, Function.update_self]
      obtain ⟨⟨a, hmoves, hprogress⟩, houtbox⟩ := hprocess p' hself
      rw [hprogress]
      refine Starting.read hapart h.base hsound hne hnext hmoves (h.starting p hp) hlog hmaster
        (hanswers.trans (answered_eq fun hc => hne (hsound.isCached.mp hc))) ?_ ?_ ?_
      · rw [happs, Function.update_of_ne (Ne.symm hne)]
      · exact said_eq_of_outbox hlog (outbox_of_update_of_ne happs (Ne.symm hne))
      · refine said_append_of_outbox hlog ?_
        rw [World.outbox, hp', World.outbox, hp]
        exact houtbox

/-- The frames of an answer. -/
def answerItems (uid cmd : UInt32) (answer : List δ) : List (Key × Payload δ) :=
  answer.map (fun data => (answerKey uid, .state data)) ++
    [(⟨cachedHome.uid, cmd⟩, .request (.requestCachedDone uid))]

theorem filterMap_answer (answer : List δ) :
    (answer.map fun data => (answerKey uid, Payload.state data)).filterMap (answerIn uid) = answer := by
  have hsome : ∀ data : δ, answerIn uid (answerKey uid, Payload.state data) = some data := fun data =>
    answerIn_eq_some.mpr ⟨rfl, rfl⟩
  induction answer with
  | nil => rfl
  | cons data answer ih => rw [List.map_cons, List.filterMap_cons_some (hsome data), ih]

theorem filterMap_answerItems (cmd : UInt32) (answer : List δ) :
    (answerItems uid cmd answer).filterMap (answerIn uid) = answer := by
  have hdone : answerIn (δ := δ) uid (⟨cachedHome.uid, cmd⟩, .request (.requestCachedDone uid)) = none := by
    simp [answerIn, Payload.data?]
  rw [answerItems, List.filterMap_append, filterMap_answer, List.filterMap_cons_none hdone,
    List.filterMap_nil, List.append_nil]

/-- The cache is done after all of the answer. -/
theorem preceded_answerItems (cmd : UInt32) (answer : List δ) :
    Preceded (IsDone uid) (fun before => before.filterMap (answerIn uid) = answer)
      (answerItems uid cmd answer) := by
  refine preceded_append.mpr ⟨preceded_of_forall_not fun item hitem => ?_, fun _ => ?_, trivial⟩
  · obtain ⟨data, -, rfl⟩ := List.mem_map.mp hitem
    simp [IsDone]
  · dsimp only
    rw [List.append_nil, filterMap_answer]

/-- The cache reads what another application asks of it. -/
theorem Tracked.reads_request (h : Tracked uids uid w) (hne : uid ≠ cachedHome.uid) {q : Process δ}
    (hq : w.apps cachedHome.uid = some q) (hempty : q.outbox = [])
    (hnext : q.inbox.next w.log = some (i, post)) (hrequest : post.message = .requestCached)
    (hlocation : post.key.location = uid) (hknown : uid ∈ q.state.locations)
    (hp : w.apps uid = some p) : (w.appReads cachedHome.uid q answer).Starting uid p.progress := by
  have hsound := h.base.apps _ q hq
  have hcached : q.state.isCached = true := hsound.isCached.mpr rfl
  have hpost := List.mem_of_getElem? (Inbox.next_eq_some.mp hnext).1
  have houtbox : w.outbox cachedHome.uid = [] := by
    rw [World.outbox, hq]
    exact hempty
  have hitems : ((q.state.observe post.time).outputs answer post.key.location post.message).map
      (fun x => (⟨cachedHome.uid, x.1⟩, x.2)) = answerItems uid q.state.cmd.uid answer := by
    have hc : (q.state.observe post.time).isCached = true := hcached
    simp only [App.outputs, hrequest, hlocation]
    rw [if_pos ⟨hc, hknown⟩, List.map_append, List.map_map]
    rfl
  obtain ⟨hlog, hmaster, hanswers, process, happs, hprocess⟩ :=
    appReads_spec answer hsound hnext
  have hself := (congrFun hanswers uid).trans (answered_self hcached hrequest hlocation hknown)
  have hold : w.apps cachedHome.uid ≠ none := by simp [hq]
  have hsaid : (w.appReads cachedHome.uid q answer).said uid p.since = w.said uid p.since :=
    said_eq_of_outbox hlog (outbox_of_update_of_ne happs hne)
  have hhere := outbox_of_update happs
  cases hcase : process with
  | none =>
      rw [hcase] at happs hhere
      have hnothing : (w.appReads cachedHome.uid q answer).said cachedHome.uid p.since =
          w.said cachedHome.uid p.since := said_eq_of_outbox hlog (hhere.trans houtbox.symm)
      refine (h.starting p hp).answer hlog hmaster hself ⟨post, hpost, hlocation, hrequest⟩ hsaid
        (preceded_answerItems q.state.cmd.uid answer) (filterMap_answerItems _ _) hold ?_ ?_
      · rw [show p.progress.since = p.since from rfl, hnothing]
        exact List.prefix_append _ _
      · intro halive
        rw [happs, Function.update_self] at halive
        exact absurd rfl halive
  | some q' =>
      have hq' : q'.outbox = q.outbox ++ answerItems uid q.state.cmd.uid answer :=
        hitems ▸ (hprocess q' hcase).2
      have hall : (w.appReads cachedHome.uid q answer).said cachedHome.uid p.since =
          w.said cachedHome.uid p.since ++ answerItems uid q.state.cmd.uid answer := by
        refine said_append_of_outbox hlog ?_
        rw [hhere, hcase, houtbox, ← hempty]
        exact hq'
      refine (h.starting p hp).answer hlog hmaster hself ⟨post, hpost, hlocation, hrequest⟩ hsaid
        (preceded_answerItems q.state.cmd.uid answer) (filterMap_answerItems _ _) hold ?_ fun _ => ?_
      all_goals rw [show p.progress.since = p.since from rfl, hall]

/-- Another application reads. -/
theorem Tracked.reads_other (h : Tracked uids uid w) (hne : uid ≠ cachedHome.uid) (hu : uid ≠ u)
    {q : Process δ} (hq : w.apps u = some q) (hempty : q.outbox = []) (hp : w.apps uid = some p) :
    (w.appReads u q answer).Starting uid p.progress := by
  have hsound := h.base.apps u q hq
  have hstarting := h.starting p hp
  cases hnext : q.inbox.next w.log with
  | none =>
      unfold World.appReads
      rw [hnext]
      exact hstarting
  | some read =>
      obtain ⟨i, post⟩ := read
      by_cases hanswer : q.state.isCached = true ∧ post.message = .requestCached ∧
          post.key.location = uid ∧ uid ∈ q.state.locations
      · obtain ⟨hcached, hrequest, hlocation, hknown⟩ := hanswer
        obtain rfl := hsound.isCached.mp hcached
        exact h.reads_request hne hq hempty hnext hrequest hlocation hknown hp
      · obtain ⟨hlog, hmaster, hanswers, process, happs, hprocess⟩ :=
          appReads_spec answer hsound hnext
        have hsame := (congrFun hanswers uid).trans (answered_of_not hanswer)
        have hhome : (q.state.observe post.time).home.uid = u := hsound.home
        by_cases hcached : u = cachedHome.uid
        · have hmore : ∀ x ∈ ((q.state.observe post.time).outputs answer post.key.location
              post.message).map (fun x => ((⟨u, x.1⟩ : Key), x.2)),
              ¬ IsDone uid x ∧ answerIn uid x = none := by
            intro x hx
            obtain ⟨y, hy, rfl⟩ := List.mem_map.mp hx
            refine not_concerns_of_outputs hne hhome hcached (fun hother => hanswer ?_) hy
            exact ⟨hsound.isCached.mpr hcached, hother⟩
          refine hstarting.update hu hlog hmaster happs hsame hmore ?_
          intro _ q' hq'
          rw [← hcached, World.outbox, hq]
          exact ⟨Option.some_ne_none q, (hprocess q' hq').2⟩
        · exact hstarting.update hu hlog hmaster happs hsame (fun x hx => absurd hx List.not_mem_nil)
            fun h => absurd h hcached

end Reads

/-! ## Steps -/

@[simp] theorem masterRuns_apps (inbox : Inbox Key) (run : Master → Except Fault Master) :
    (w.masterRuns inbox run).apps = w.apps := by
  unfold World.masterRuns
  split <;> rfl

/-- The master runs its handlers while the application of interest is there. -/
theorem Tracked.masterRuns (h : Tracked uids uid w) (hready : w.MasterReady) {inbox : Inbox Key}
    {run : Master → Except Fault Master}
    (hrun : ∀ p m, w.apps uid = some p → run w.master.state = .ok m → w.Permits uid p.since m)
    (hp : (w.masterRuns inbox run).apps uid = some p) :
    (w.masterRuns inbox run).Starting uid p.progress := by
  rw [masterRuns_apps] at hp
  exact (h.starting p hp).masterRuns hready fun m hm => hrun p m hp hm

/-- What an application writes of its own does not concern the start. -/
theorem not_concerns_of_isOwn {dest : UInt32} {payload : Payload δ} (h : IsOwn u dest payload) :
    u ≠ cachedHome.uid ∧ (∀ fromTime, payload ≠ .request (.requestReadFrom cachedHome.uid fromTime)) ∧
      payload ≠ .requestCached := by
  cases payload with
  | state data => exact ⟨h, by simp, by simp⟩
  | request event =>
      cases event with
      | requestCachedDone destId => exact h.elim
      | requestReadFrom sourceId fromTime =>
          refine ⟨h.1, fun fromTime' heq => ?_, by simp⟩
          cases heq
          exact h.2.2 rfl
      | _ => exact ⟨h.1, by simp, by simp⟩
  | _ => exact h.elim

/-- A process goes on without a word to the cache. -/
theorem Tracked.writes (h : Tracked uids uid w) (hne : uid ≠ cachedHome.uid) {q q' : Process δ}
    (hq : w.apps u = some q) (hprogress : q'.progress = q.progress) {more : List (Key × Payload δ)}
    (houtbox : q'.outbox = q.outbox ++ more)
    (hmore : ∀ x ∈ more, u ≠ cachedHome.uid ∧
      (∀ fromTime, x.2 ≠ .request (.requestReadFrom cachedHome.uid fromTime)) ∧ x.2 ≠ .requestCached)
    (hlog : w'.log = w.log) (hmaster : w'.master = w.master) (hanswers : w'.answers = w.answers)
    (happs : w'.apps = Function.update w.apps u (some q')) {p : Process δ} (hp : w'.apps uid = some p) :
    w'.Starting uid p.progress := by
  have hold : w.outbox u = q.outbox := by
    rw [World.outbox, hq]
    rfl
  by_cases hu : uid = u
  · subst hu
    have hself : p = q' := by
      rw [happs, Function.update_self] at hp
      exact (Option.some.inj hp).symm
    rw [hself, hprogress]
    refine (h.starting q hq).self hne hlog hmaster happs (congrFun hanswers uid) ?_
      fun x hx => (hmore x hx).2
    rw [outbox_of_update happs, hold]
    exact houtbox
  · rw [happs, Function.update_of_ne hu] at hp
    have hstarting := h.starting p hp
    by_cases hcached : u = cachedHome.uid
    · have hnil : more = [] := List.eq_nil_iff_forall_not_mem.mpr fun x hx => (hmore x hx).1 hcached
      refine hstarting.update hu hlog hmaster happs (congrFun hanswers uid)
        (fun x hx => absurd hx List.not_mem_nil) fun _ q'' hq'' => ?_
      cases hq''
      rw [← hcached, hold, ← hnil]
      exact ⟨fun hnone => Option.some_ne_none q (hq.symm.trans hnone), houtbox⟩
    · exact hstarting.update hu hlog hmaster happs (congrFun hanswers uid)
        (fun x hx => absurd hx List.not_mem_nil) fun heq => absurd heq hcached

/-- A process starts. -/
theorem Tracked.start (hapart : Apart uids) (hne : uid ≠ cachedHome.uid) (h : Tracked uids uid w)
    {home : Location} {time : Int64} (hs : Allowed uids uid w (.start home time))
    (hlog : w'.log = w.log) (hmaster : w'.master = w.master)
    (happs : w'.apps = Function.update w.apps home.uid (some {
      state := App.start home time
      inbox := fun k => if k = masterKey PUBLIC then some w.log.length else none
      outbox := []
      since := w.log.length }))
    (hanswers : w'.answers = Function.update w.answers home.uid []) {p : Process δ}
    (hp : w'.apps uid = some p) : w'.Starting uid p.progress := by
  by_cases hu : home.uid = uid
  · subst hu
    rw [happs, Function.update_self, Option.some.injEq] at hp
    subst hp
    refine starting_start hapart h.base (hs.2.1 rfl) hlog hmaster (outbox_of_update happs)
      (outbox_of_update_of_ne happs (Ne.symm hne)) ?_ ?_
    · rw [hanswers, Function.update_self]
    · rintro (hmet | hmet)
      · exact .inl (hmaster ▸ hmet)
      · refine .inr ?_
        rw [happs, Function.update_of_ne (Ne.symm hne)]
        exact hmet
  · rw [happs, Function.update_of_ne (Ne.symm hu)] at hp
    refine (h.starting p hp).update (Ne.symm hu) hlog hmaster happs ?_
      (fun x hx => absurd hx List.not_mem_nil) fun hcached => ?_
    · rw [hanswers, Function.update_of_ne (Ne.symm hu)]
    · rw [hs.2.2 hcached] at hp
      cases hp

/-- Time goes on. -/
theorem Tracked.wait (h : Tracked uids uid w) {time : Int64} (htime : w.now < time) :
    Tracked uids uid { w with now := time } where
  base := h.base.wait htime
  starting p hp := (h.starting p hp).idle rfl rfl rfl (fun _ => .inl)
    (fun x hx => absurd hx List.not_mem_nil) (by rw [List.append_nil]; rfl)
    fun hne => ⟨hne, List.prefix_rfl⟩

/-- Another process dies. -/
theorem Tracked.stop (h : Tracked uids uid w)
    (hp : Function.update w.apps u none uid = some p) :
    ({ w with apps := Function.update w.apps u none } : World δ).Starting uid p.progress := by
  have hu : uid ≠ u := by
    rintro rfl
    rw [Function.update_self] at hp
    cases hp
  rw [Function.update_of_ne hu] at hp
  refine (h.starting p hp).update hu rfl rfl rfl rfl (fun x hx => absurd hx List.not_mem_nil) ?_
  rintro - _ ⟨⟩

/-- A process checks in. -/
theorem Tracked.register (h : Tracked uids uid w) {register : Register} {genTime : Int64}
    {clock : Clock} (hready : w.MasterReady) (hchecks : w.ChecksIn register clock)
    (hp : (({ w with now := clock.now } : World δ).masterRuns w.master.inbox fun m =>
      m.registerApp genTime clock register).apps uid = some p) :
    (({ w with now := clock.now } : World δ).masterRuns w.master.inbox fun m =>
      m.registerApp genTime clock register).Starting uid p.progress := by
  obtain ⟨happ, htime⟩ := hchecks
  obtain ⟨q, hq, -⟩ := (Option.any_eq_true _ _).mp happ
  have hwait := h.wait htime
  have hlive : ¬ w.apps register.location.uid = none := fun hnone =>
    Option.some_ne_none q (hq.symm.trans hnone)
  refine hwait.masterRuns hready (fun p' m _ hm => ?_) hp
  exact permits_register hwait.base (h.base.apps _ q hq).mem hlive hm

/-- A process writes something of its own. -/
theorem Tracked.writesOwn (h : Tracked uids uid w) (hne : uid ≠ cachedHome.uid) {q : Process δ}
    (hq : w.apps u = some q) {dest : UInt32} {payload : Payload δ} (hown : IsOwn u dest payload)
    (hp : Function.update w.apps u (some { q with outbox := q.outbox ++ [(⟨u, dest⟩, payload)] }) uid =
      some p) :
    ({ w with apps := Function.update w.apps u (some { q with
      outbox := q.outbox ++ [(⟨u, dest⟩, payload)] }) } : World δ).Starting uid p.progress := by
  have hmore : ∀ x ∈ [((⟨u, dest⟩ : Key), payload)], u ≠ cachedHome.uid ∧
      (∀ fromTime, x.2 ≠ .request (.requestReadFrom cachedHome.uid fromTime)) ∧
        x.2 ≠ .requestCached := by
    intro x hx
    rw [List.mem_singleton.mp hx]
    exact not_concerns_of_isOwn hown
  have houtbox : ({ q with outbox := q.outbox ++ [(⟨u, dest⟩, payload)] } : Process δ).outbox =
      q.outbox ++ [(⟨u, dest⟩, payload)] := rfl
  refine h.writes hne hq ?_ houtbox hmore ?_ ?_ ?_ ?_ hp <;> rfl

/-- A step that its guards let leaves the application of interest where it is in its start. -/
theorem Tracked.fires (hapart : Apart uids) (hne : uid ≠ cachedHome.uid) (h : Tracked uids uid w)
    {s : Step δ} (hs : Allowed uids uid w s) (hfires : w.Fires s w') (hp : w'.apps uid = some p) :
    w'.Starting uid p.progress := by
  cases hfires with
  | start home time hdead htime => refine h.start hapart hne hs ?_ ?_ ?_ ?_ hp <;> rfl
  | stop u => exact h.stop hp
  | register register genTime clock hready hchecks => exact h.register hready hchecks hp
  | deregister u time hready hdead =>
      exact h.masterRuns hready (fun p' m _ hm => permits_deregister h.base hapart hdead hm) hp
  | masterReads frameLength clock i post hready hnext =>
      exact h.masterRuns hready (fun p' m hp' hm => (h.starting p' hp').permits_frame h.base hnext hm) hp
  | masterDoes chore hready =>
      exact h.masterRuns hready (fun p' m _ hm => permits_chore h.base hm) hp
  | masterPublishes time item outbox hitems htime => exact h.masterPublishes hitems hp
  | reads u answer q hq hempty =>
      by_cases hu : uid = u
      · subst hu
        exact h.reads_self hapart hne hq hp
      · rw [appReads_apps_of_ne hu] at hp
        exact h.reads_other hne hu hq (List.length_eq_zero_iff.mp hempty) hp
  | notices u q hq =>
      have houtbox : ({ q with state := q.state.observe w.now } : Process δ).outbox = q.outbox ++ [] :=
        (List.append_nil _).symm
      refine h.writes hne hq ?_ houtbox (fun x hx => absurd hx List.not_mem_nil) ?_ ?_ ?_ ?_ hp <;> rfl
  | writes u dest payload q hq hwriter hown => exact h.writesOwn hne hq hown hp
  | publishes u time q item outbox hq hitems htime =>
      have hq' : q.outbox = item :: ({ q with outbox := outbox } : Process δ).outbox := hitems
      have hlog : ({ w with
          apps := Function.update w.apps u (some { q with outbox := outbox }) }.publish time item).log =
            w.log ++ [⟨item.1, time, item.2⟩] := rfl
      refine h.publishes hq hq' ?_ hlog ?_ ?_ ?_ hp <;> rfl

/-- Every step that is allowed keeps it. -/
theorem Tracked.step (hapart : Apart uids) (hne : uid ≠ cachedHome.uid) (h : Tracked uids uid w)
    {s : Step δ} (hs : Allowed uids uid w s) : Tracked uids uid (w.step s) := by
  refine ⟨h.base.step hapart ?_, fun p hp => ?_⟩
  · rintro home time rfl
    exact hs.1
  obtain heq | hfires := w.step_eq_or_fires s
  · rw [heq] at hp ⊢
    exact h.starting p hp
  · exact h.fires hapart hne hs hfires hp

/-! ## Runs -/

theorem base_start (stored : List Location) (builder : SessionBuilder) (now : Int64) :
    Base uids (World.start (δ := δ) stored builder now) where
  master := {
    consistent := Master.consistent_start _ _
    joined k hk := absurd hk (AList.notMem_empty k)
    registry entry hentry := absurd hentry List.not_mem_nil }
  written := rfl
  inbox k hk := by cases hk
  log post hpost := absurd hpost List.not_mem_nil
  outbox item hitem := by
    rw [List.mem_singleton.mp hitem]
    exact ⟨⟨rfl, trivial⟩, trivial⟩
  registered k register hitem := by
    cases List.mem_singleton.mp hitem
  apps uid p hp := by cases hp

/-- An application that has started has all of the first answer of the cache in its bank. -/
theorem started_answered (hapart : Apart uids) (hne : uid ≠ cachedHome.uid) (stored : List Location)
    (builder : SessionBuilder) (now : Int64) {steps : List (Step δ)}
    (hrun : Along World.step (Allowed uids uid) (World.start stored builder now) steps)
    (hp : (steps.foldl World.step (World.start stored builder now)).apps uid = some p)
    (hstarted : p.state.started = true) :
    ∃ answer rest,
      (steps.foldl World.step (World.start stored builder now)).answers uid = answer :: rest ∧
        answer <+: (p.state.bank.filter (·.1 = answerKey uid)).map (·.2) := by
  have htracked : Tracked uids uid (steps.foldl World.step (World.start stored builder now)) :=
    hrun.foldl (fun w s h hs => h.step hapart hne hs) ⟨base_start stored builder now, fun p hp => by cases hp⟩
  exact (htracked.starting p hp).started hstarted

/-! ### A strategy starts -/

def exampleHome : Location := makeLocation .LIVE .STRATEGY "default" "demo"

/-- The master publishes as many frames, one at a time. -/
def examplePosts (time count : ℕ) : List (Step ℕ) :=
  (List.range' time count).map fun t => .masterPublishes (Int64.ofNat t)

def exampleCheckIn (home : Location) (time count : ℕ) : List (Step ℕ) :=
  .register ⟨home, 100, 0, 0⟩ 0 ⟨Int64.ofNat time, 0, 0, 0⟩ :: examplePosts (time + 1) count

/-- The master reads a request, and publishes what it replies. -/
def exampleReplies (time count : ℕ) : List (Step ℕ) :=
  .masterReads 0 ⟨Int64.ofNat time, 0, 0, 0⟩ :: examplePosts (time + 1) count

def exampleReads (home : Location) (count : ℕ) : List (Step ℕ) :=
  List.replicate count (.reads home.uid [5, 7])

def examplePublishes (home : Location) (time count : ℕ) : List (Step ℕ) :=
  (List.range' time count).map fun t => .publishes home.uid (Int64.ofNat t)

/-- The cache starts and checks in, and after it a strategy, which asks it. -/
def exampleSteps : List (Step ℕ) :=
  [.start cachedHome 1, .masterPublishes 2] ++ exampleReads cachedHome 1 ++
  exampleCheckIn cachedHome 3 15 ++ exampleReads cachedHome 15 ++
  examplePublishes cachedHome 19 1 ++ exampleReplies 20 8 ++ exampleReads cachedHome 8 ++
  [.start exampleHome 29] ++ exampleCheckIn exampleHome 30 18 ++
  exampleReads cachedHome 2 ++ exampleReads exampleHome 18 ++
  examplePublishes exampleHome 49 2 ++ exampleReplies 51 3 ++ exampleReplies 55 4 ++
  exampleReads cachedHome 4 ++ exampleReads exampleHome 5 ++
  examplePublishes exampleHome 60 1 ++ exampleReplies 61 0 ++ exampleReads cachedHome 1 ++
  examplePublishes cachedHome 62 3 ++ exampleReads exampleHome 2 ++
  exampleReplies 65 0 ++ exampleReplies 66 0 ++ exampleReplies 67 1 ++ exampleReads exampleHome 1

theorem started_answered_demo :
    ∃ p, (exampleSteps.foldl World.step (World.start [] Master.exampleBuilder 0)).apps exampleHome.uid =
        some p ∧ p.state.started = true ∧
      ∃ answer rest, (exampleSteps.foldl World.step
          (World.start [] Master.exampleBuilder 0)).answers exampleHome.uid = answer :: rest ∧
        answer <+: (p.state.bank.filter (·.1 = answerKey exampleHome.uid)).map (·.2) := by
  have hstarted : ((exampleSteps.foldl World.step (World.start [] Master.exampleBuilder 0)).apps
      exampleHome.uid).any (fun p => p.state.started) = true := by decide +kernel
  have hrun : Along World.step (Allowed [cachedHome.uid, exampleHome.uid] exampleHome.uid)
      (World.start [] Master.exampleBuilder 0) exampleSteps := by decide +kernel
  have hapart : Apart [cachedHome.uid, exampleHome.uid] := by
    refine ⟨by decide +kernel, by decide +kernel, ?_, by decide +kernel⟩
    rw [List.forall_mem_cons, List.forall_mem_singleton]
    decide +kernel
  obtain ⟨p, hp, hstarted⟩ := (Option.any_eq_true _ _).mp hstarted
  refine ⟨p, hp, hstarted, started_answered hapart ?_ [] Master.exampleBuilder 0 hrun hp hstarted⟩
  decide +kernel

end World

end Kungfu.Practice.Startup
