import Kungfu.Practice.Interleaving

/-!
# The start of an application

An application asks the cache for what it has stored and starts when the cache is done.  By then it
has in its bank all that the cache has answered, whatever other processes do meanwhile.

It reads from the cache before it asks, since the master tells it to before it tells it that the
cache is ready.  The cache says that it is done after its answer, and the master has the
application start after that.
-/

namespace Kungfu.Practice

open Longfist Yijinjing Index Outcome Log

variable {δ : Type}

def Payload.data? : Payload δ → Option δ
  | .state data => some data
  | .master _ | .request _ | .requestCached => none

namespace Startup

/-- The journal of the answers of the cache. -/
def answerKey (uid : UInt32) : Key := ⟨cachedHome.uid, uid⟩

/-- How far an application is. -/
structure Progress (δ : Type) where
  since : ℕ
  inbox : Inbox Key
  started : Bool
  bank : List (Key × δ)

def Process.progress (p : Process δ) : Progress δ :=
  ⟨p.since, p.inbox, p.state.started, p.state.bank⟩

/-- What was fed of a journal. -/
def Progress.fed (g : Progress δ) (k : Key) : List δ := (g.bank.filter (·.1 = k)).map (·.2)

namespace World

variable (w : World δ) (uid : UInt32) (g : Progress δ)

/-! ## Frames of the start -/

section Items

variable (item : Key × Payload δ)

/-- The cache registers. -/
def Registers : Prop :=
  ∃ register, item.2 = .master (.register register) ∧ register.location.uid = cachedHome.uid

/-- The cache is deregistered. -/
def Deregisters : Prop :=
  ∃ location, item.2 = .master (.deregister location) ∧ location.uid = cachedHome.uid

/-- The application is told to read from the cache. -/
def Reads : Prop := item.1 = masterKey uid ∧ ∃ fromTime, item.2 = .master (.requestReadFrom cachedHome.uid fromTime)

/-- The application is told that the cache is ready. -/
def IsReady : Prop := item = (masterKey uid, .master (.mark .CachedReadyToRead))

/-- The application is told to start. -/
def IsStart : Prop := item = (masterKey uid, .master (.mark .RequestStart))

/-- The cache is done with the application. -/
def IsDone : Prop := item.2 = .request (.requestCachedDone uid)

/-- What is answered to the application. -/
def answerIn : Option δ := if item.1 = answerKey uid then item.2.data? else none

end Items

/-- What the master has written and is to write. -/
def told (since : ℕ) : List (Key × Payload δ) :=
  sent (fun item => item.2.IsMaster) (w.log.drop since) w.master.outbox

/-- What an application has written and is to write. -/
def said (uid : UInt32) (since : ℕ) : List (Key × Payload δ) :=
  sent (fun item => item.1.location = uid ∧ ¬ item.2.IsMaster) (w.log.drop since) (w.outbox uid)

/-- What was posted to the application by the cache between two positions. -/
def given (a b : ℕ) : List δ := (slice w.log (answerKey uid) a b).filterMap (answerIn uid ∘ Post.item)

/-! ## Stages -/

/-- The cache is dead, or the master knows it. -/
def Met : Prop := cachedHome.uid ∈ w.master.state.registry ∨ w.apps cachedHome.uid = none

/-- The cache is dead, and the master knows. -/
def Gone : Prop := cachedHome.uid ∉ w.master.state.registry ∧ w.apps cachedHome.uid = none

/-- The cache has answered, and the answer is contained in the data. -/
def Answered (data : List δ) : Prop := ∃ answer rest, w.answers uid = answer :: rest ∧ answer <+: data

/-- The application does not read from the cache yet, and has not asked it. -/
structure Waits : Prop where
  fed : g.fed (answerKey uid) = []
  inbox : g.inbox (answerKey uid) = none
  silent : ∀ k, (k, .requestCached) ∉ w.said uid g.since
  unread : ∀ j post, w.log[j]? = some post → Reads uid post.item →
    ∀ n ∈ g.inbox (masterKey uid), n ≤ j

/-- The application reads from the cache: it was told to, and after that comes what it is still to
read of the public journal. -/
structure Listens : Prop where
  fed : ∃ n, g.inbox (answerKey uid) = some n ∧ g.since ≤ n ∧ g.fed (answerKey uid) = w.given uid g.since n
  inbox : (g.inbox (masterKey uid)).isSome
  told : ∃ r post, g.since ≤ r ∧ w.log[r]? = some post ∧ Reads uid post.item ∧
    ∀ n ∈ g.inbox (masterKey PUBLIC), ∀ d q, w.log[d]? = some q → q.key = masterKey PUBLIC → n ≤ d → r < d

/-- The application will never start. -/
structure Lost : Prop where
  gone : w.Gone
  inbox : (g.inbox (masterKey uid)).isSome
  pending : (masterKey uid, .master (.mark .RequestStart)) ∉ w.master.outbox
  unread : ∀ j post, w.log[j]? = some post → IsStart uid post.item → ¬ g.inbox.Unread j post

/-- What is known of an application up to its start. -/
structure Starting : Prop where
  late : ∀ j post, w.log[j]? = some post → Concerns uid post.item → g.since ≤ j
  joined : ∃ n, g.inbox (masterKey PUBLIC) = some n ∧ g.since ≤ n
  met : ∀ item ∈ w.told g.since, Registers item → w.Met
  asked : ∀ k fromTime, (k, .request (.requestReadFrom cachedHome.uid fromTime)) ∈ w.said uid g.since → w.Met
  ready : Preceded (IsReady uid) (fun before => w.Gone ∨ ∃ item ∈ before, Reads uid item) (w.told g.since)
  leaves : Preceded Deregisters (fun before => (∃ item ∈ before, Reads uid item) → w.Gone) (w.told g.since)
  starts : Preceded (IsStart uid) (Preceded Deregisters fun before => ¬ ∃ item ∈ before, Reads uid item)
    (w.told g.since)
  done : Preceded (IsDone uid) (fun before => w.Answered uid (before.filterMap (answerIn uid)))
    (w.said cachedHome.uid g.since)
  first : ∀ answer rest, w.answers uid = answer :: rest → w.apps cachedHome.uid ≠ none →
    answer <+: (w.said cachedHome.uid g.since).filterMap (answerIn uid)
  silent : w.answers uid = [] → (w.said cachedHome.uid g.since).filterMap (answerIn uid) = []
  requested : w.answers uid ≠ [] → ∃ post ∈ w.log, post.key.location = uid ∧ post.message = .requestCached
  posted : ∀ j post, w.log[j]? = some post → IsStart uid post.item → w.Answered uid (w.given uid g.since j)
  pending : (masterKey uid, .master (.mark .RequestStart)) ∈ w.master.outbox →
    w.Answered uid (w.given uid g.since w.log.length)
  stage : g.started = false → w.Waits uid g ∨ w.Listens uid g ∨ w.Lost uid g
  unread : g.started = false → ∀ j post, w.log[j]? = some post → IsStart uid post.item →
    ∀ n ∈ g.inbox (masterKey uid), n ≤ j
  started : g.started = true → w.Answered uid (g.fed (answerKey uid))

variable {w uid g} {w' : World δ}

theorem answerIn_eq_some {item : Key × Payload δ} {data : δ} :
    answerIn uid item = some data ↔ item.1 = answerKey uid ∧ item.2 = .state data := by
  obtain ⟨k, payload⟩ := item
  rw [answerIn, Option.ite_none_right_eq_some]
  cases payload <;> simp [Payload.data?]

/-! ## Steps of others -/

theorem Answered.mono {data data' : List δ} (h : w.Answered uid data) (hdata : data <+: data') :
    w.Answered uid data' := by
  obtain ⟨answer, rest, hanswers, hinitial⟩ := h
  exact ⟨answer, rest, hanswers, hinitial.trans hdata⟩

/-- Answers are added. -/
theorem Answered.append {data : List δ} (h : w.Answered uid data) {more : List (List δ)}
    (hanswers : w'.answers uid = w.answers uid ++ more) : w'.Answered uid data := by
  obtain ⟨answer, rest, hold, hinitial⟩ := h
  exact ⟨answer, rest ++ more, by rw [hanswers, hold, List.cons_append], hinitial⟩

theorem Answered.congr {data : List δ} (h : w.Answered uid data)
    (hanswers : w'.answers uid = w.answers uid) : w'.Answered uid data :=
  h.append (hanswers.trans (List.append_nil _).symm)

theorem given_of_log (hlog : w'.log = w.log) (a b : ℕ) : w'.given uid a b = w.given uid a b := by
  rw [given, given, hlog]

theorem Answered.ne_nil {data : List δ} (h : w.Answered uid data) : w.answers uid ≠ [] := by
  obtain ⟨answer, rest, hanswers, -⟩ := h
  simp [hanswers]

/-- Processes do what neither the application nor the master reads. -/
theorem Starting.idle (h : w.Starting uid g) (hlog : w'.log = w.log) (hmaster : w'.master = w.master)
    (hanswers : w'.answers uid = w.answers uid)
    (hsaid : ∀ x ∈ w'.said uid g.since, x ∈ w.said uid g.since ∨
      ((∀ fromTime, x.2 ≠ .request (.requestReadFrom cachedHome.uid fromTime)) ∧ x.2 ≠ .requestCached))
    {more : List (Key × Payload δ)} (hmore : ∀ x ∈ more, ¬ IsDone uid x ∧ answerIn uid x = none)
    (hcached : w'.said cachedHome.uid g.since <+: w.said cachedHome.uid g.since ++ more)
    (halive : w'.apps cachedHome.uid ≠ none → w.apps cachedHome.uid ≠ none ∧
      w.said cachedHome.uid g.since <+: w'.said cachedHome.uid g.since) : w'.Starting uid g := by
  have hmet : w.Met → w'.Met := by
    rintro (hmet | hmet)
    · exact .inl (hmaster ▸ hmet)
    · exact .inr (not_not.mp fun hne => (halive hne).1 hmet)
  have hgone : w.Gone → w'.Gone := fun hgone =>
    ⟨hmaster ▸ hgone.1, not_not.mp fun hne => (halive hne).1 hgone.2⟩
  have htold : w'.told g.since = w.told g.since := by rw [told, told, hlog, hmaster]
  have hgiven : ∀ a b, w'.given uid a b = w.given uid a b := given_of_log hlog
  have hanswered : ∀ {data}, w.Answered uid data → w'.Answered uid data := fun hdata =>
    hdata.congr hanswers
  constructor
  case late => exact hlog ▸ h.late
  case joined => exact h.joined
  case met =>
    rw [htold]
    exact fun item hitem hregisters => hmet (h.met item hitem hregisters)
  case asked =>
    intro k fromTime hitem
    rcases hsaid _ hitem with hitem | hitem
    · exact hmet (h.asked k fromTime hitem)
    · exact absurd rfl (hitem.1 fromTime)
  case ready =>
    rw [htold]
    exact h.ready.mono fun before => Or.imp_left hgone
  case leaves =>
    rw [htold]
    exact h.leaves.mono fun before hbefore hreads => hgone (hbefore hreads)
  case starts => exact htold ▸ h.starts
  case done =>
    have hdone : Preceded (IsDone uid) (fun before => w'.Answered uid (before.filterMap (answerIn uid)))
        (w.said cachedHome.uid g.since ++ more) :=
      (h.done.mono fun before => hanswered).append fun x hx => (hmore x hx).1
    exact hdone.of_prefix hcached
  case first =>
    intro answer rest hanswer hne
    obtain ⟨hold, hinitial⟩ := halive hne
    exact (h.first answer rest (hanswers ▸ hanswer) hold).trans (hinitial.filterMap _)
  case silent =>
    intro hnil
    have hnothing : more.filterMap (answerIn uid) = [] :=
      List.filterMap_eq_nil_iff.mpr fun x hx => (hmore x hx).2
    have hdata := hcached.filterMap (answerIn uid)
    rw [List.filterMap_append, h.silent (hanswers ▸ hnil), hnothing] at hdata
    exact List.prefix_nil.mp hdata
  case requested =>
    rw [hanswers, hlog]
    exact h.requested
  case posted =>
    intro j post hpost hstart
    rw [hgiven]
    exact hanswered (h.posted j post (hlog ▸ hpost) hstart)
  case pending =>
    intro hpending
    rw [hgiven, hlog]
    exact hanswered (h.pending (hmaster ▸ hpending))
  case stage =>
    intro hstarted
    rcases h.stage hstarted with hwaits | hlistens | hlost
    · refine .inl ⟨hwaits.fed, hwaits.inbox, fun k hitem => ?_, hlog ▸ hwaits.unread⟩
      rcases hsaid _ hitem with hitem | hitem
      · exact hwaits.silent k hitem
      · exact hitem.2 rfl
    · refine .inr (.inl ⟨?_, hlistens.inbox, hlog ▸ hlistens.told⟩)
      simp only [hgiven]
      exact hlistens.fed
    · exact .inr (.inr ⟨hgone hlost.gone, hlost.inbox, hmaster ▸ hlost.pending, hlog ▸ hlost.unread⟩)
  case unread => exact hlog ▸ h.unread
  case started => exact fun hstarted => hanswered (h.started hstarted)

/-- The master writes. -/
theorem Starting.tell (h : w.Starting uid g) (hempty : w.master.outbox = []) (hlog : w'.log = w.log)
    (happs : w'.apps = w.apps) (hanswers : w'.answers = w.answers) (hmet : w.Met → w'.Met)
    (hgone : w.Gone → w'.Gone) (hregisters : ∀ item ∈ w'.master.outbox, Registers item → w'.Met)
    (hready : Preceded (IsReady uid) (fun before => w'.Gone ∨ ∃ item ∈ before, Reads uid item)
      w'.master.outbox)
    (hleaves : ∀ item ∈ w'.master.outbox, Deregisters item → w'.Gone)
    (hstart : (masterKey uid, .master (.mark .RequestStart)) ∈ w'.master.outbox →
      ¬ w.Gone ∧ w.Answered uid (w.given uid g.since w.log.length) ∧
        ∀ item ∈ w'.master.outbox, ¬ Deregisters item) : w'.Starting uid g := by
  have htold : w'.told g.since = w.told g.since ++ w'.master.outbox := by
    rw [told, told, hlog, hempty, ← sent_append, List.nil_append]
  have hsaid : ∀ uid s, w'.said uid s = w.said uid s := fun uid s => by
    rw [said, said, hlog, outbox, outbox, happs]
  have hgiven : ∀ a b, w'.given uid a b = w.given uid a b := given_of_log hlog
  have hanswered : ∀ {data}, w.Answered uid data → w'.Answered uid data := fun hdata =>
    hdata.congr (congrFun hanswers uid)
  constructor
  case late => exact hlog ▸ h.late
  case joined => exact h.joined
  case met =>
    rw [htold]
    intro item hitem hregister
    rcases List.mem_append.mp hitem with hitem | hitem
    · exact hmet (h.met item hitem hregister)
    · exact hregisters item hitem hregister
  case asked =>
    rw [hsaid]
    exact fun k fromTime hitem => hmet (h.asked k fromTime hitem)
  case ready =>
    rw [htold, preceded_append]
    refine ⟨h.ready.mono fun before => Or.imp_left hgone, hready.mono fun before => Or.imp_right ?_⟩
    rintro ⟨item, hitem, hreads⟩
    exact ⟨item, List.mem_append_right _ hitem, hreads⟩
  case leaves =>
    rw [htold, preceded_append]
    refine ⟨h.leaves.mono fun before hbefore hreads => hgone (hbefore hreads), ?_⟩
    by_cases hitem : ∃ item ∈ w'.master.outbox, Deregisters item
    · obtain ⟨item, hitem, hderegisters⟩ := hitem
      exact preceded_of_prefix fun _ _ _ => hleaves item hitem hderegisters
    · exact preceded_of_forall_not fun item hmem hderegisters => hitem ⟨item, hmem, hderegisters⟩
  case starts =>
    rw [htold, preceded_append]
    refine ⟨h.starts, ?_⟩
    by_cases hmem : (masterKey uid, .master (.mark .RequestStart)) ∈ w'.master.outbox
    · obtain ⟨hnot, -, hnone⟩ := hstart hmem
      refine preceded_of_prefix fun before hbefore => preceded_append.mpr ⟨?_, ?_⟩
      · exact h.leaves.mono fun before hreads hitem => hnot (hreads hitem)
      · exact preceded_of_forall_not fun item hitem => hnone item (hbefore.subset hitem)
    · exact preceded_of_forall_not fun item hitem hstart => hmem (hstart ▸ hitem)
  case done =>
    rw [hsaid]
    exact h.done.mono fun before => hanswered
  case first =>
    rw [hsaid, hanswers, happs]
    exact h.first
  case silent =>
    rw [hsaid, hanswers]
    exact h.silent
  case requested =>
    rw [hanswers, hlog]
    exact h.requested
  case posted =>
    intro j post hpost hstart
    rw [hgiven]
    exact hanswered (h.posted j post (hlog ▸ hpost) hstart)
  case pending =>
    intro hpending
    rw [hgiven, hlog]
    exact hanswered (hstart hpending).2.1
  case stage =>
    intro hstarted
    rcases h.stage hstarted with hwaits | hlistens | hlost
    · refine .inl ⟨hwaits.fed, hwaits.inbox, ?_, hlog ▸ hwaits.unread⟩
      rw [hsaid]
      exact hwaits.silent
    · refine .inr (.inl ⟨?_, hlistens.inbox, hlog ▸ hlistens.told⟩)
      simp only [hgiven]
      exact hlistens.fed
    · refine .inr (.inr ⟨hgone hlost.gone, hlost.inbox, fun hmem => ?_, hlog ▸ hlost.unread⟩)
      exact (hstart hmem).1 hlost.gone
  case unread => exact hlog ▸ h.unread
  case started => exact fun hstarted => hanswered (h.started hstarted)

theorem given_post {q : Post Key Int64 (Payload δ)} (hlog : w'.log = w.log ++ [q]) {a b : ℕ}
    (ha : a ≤ w.log.length) (hb : b ≤ w.log.length) : w'.given uid a b = w.given uid a b := by
  rw [given, given, hlog, slice_append ha hb]

theorem given_initial {a b c : ℕ} (hab : a ≤ b) (hbc : b ≤ c) : w.given uid a b <+: w.given uid a c :=
  (slice_initial hab hbc).filterMap _

/-- A frame is published. -/
theorem Starting.post (h : w.Starting uid g) {q : Post Key Int64 (Payload δ)}
    (hlog : w'.log = w.log ++ [q]) (hsince : g.since ≤ w.log.length)
    (hbound : ∀ k n, g.inbox k = some n → n ≤ w.log.length) (hanswers : w'.answers = w.answers)
    (hmet : w.Met → w'.Met) (hgone : w.Gone → w'.Gone)
    (halive : w'.apps cachedHome.uid ≠ none → w.apps cachedHome.uid ≠ none)
    (htold : w'.told g.since = w.told g.since) (hsaid : w'.said uid g.since = w.said uid g.since)
    (hcached : w'.said cachedHome.uid g.since = w.said cachedHome.uid g.since)
    (hrest : ∀ item ∈ w'.master.outbox, item ∈ w.master.outbox)
    (hstart : IsStart uid q.item → q.item ∈ w.master.outbox) : w'.Starting uid g := by
  have hanswered : ∀ {data}, w.Answered uid data → w'.Answered uid data := fun hdata =>
    hdata.congr (congrFun hanswers uid)
  have hposts : ∀ {j post}, w'.log[j]? = some post →
      w.log[j]? = some post ∨ (j = w.log.length ∧ post = q) := fun hpost =>
    getElem?_post (hlog ▸ hpost)
  have hlt : ∀ {j post}, w.log[j]? = some post → j < w.log.length := fun hpost =>
    (List.getElem?_eq_some_iff.mp hpost).1
  constructor
  case late =>
    intro j post hpost hconcerns
    rcases hposts hpost with hpost | ⟨rfl, rfl⟩
    · exact h.late j post hpost hconcerns
    · exact hsince
  case joined => exact h.joined
  case met =>
    rw [htold]
    exact fun item hitem hregisters => hmet (h.met item hitem hregisters)
  case asked =>
    rw [hsaid]
    exact fun k fromTime hitem => hmet (h.asked k fromTime hitem)
  case ready =>
    rw [htold]
    exact h.ready.mono fun before => Or.imp_left hgone
  case leaves =>
    rw [htold]
    exact h.leaves.mono fun before hbefore hreads => hgone (hbefore hreads)
  case starts => exact htold ▸ h.starts
  case done =>
    rw [hcached]
    exact h.done.mono fun before => hanswered
  case first =>
    rw [hcached, hanswers]
    exact fun answer rest hanswer hne => h.first answer rest hanswer (halive hne)
  case silent =>
    rw [hcached, hanswers]
    exact h.silent
  case requested =>
    rw [hanswers, hlog]
    intro hne
    obtain ⟨post, hpost, hrequest⟩ := h.requested hne
    exact ⟨post, List.mem_append_left _ hpost, hrequest⟩
  case posted =>
    intro j post hpost hitem
    rcases hposts hpost with hpost | ⟨rfl, rfl⟩
    · rw [given_post hlog hsince (Nat.le_of_lt (hlt hpost))]
      exact hanswered (h.posted j post hpost hitem)
    · rw [given_post hlog hsince (Nat.le_refl _)]
      exact hanswered (h.pending (hitem ▸ hstart hitem))
  case pending =>
    intro hpending
    have hdata := h.pending (hrest _ hpending)
    rw [← given_post hlog hsince (Nat.le_refl _)] at hdata
    exact hanswered (hdata.mono (given_initial hsince (by simp [hlog])))
  case stage =>
    intro hstarted
    rcases h.stage hstarted with hwaits | hlistens | hlost
    · refine .inl ⟨hwaits.fed, hwaits.inbox, hsaid ▸ hwaits.silent, fun j post hpost hreads n hn => ?_⟩
      rcases hposts hpost with hpost | ⟨rfl, rfl⟩
      · exact hwaits.unread j post hpost hreads n hn
      · exact hbound _ n hn
    · obtain ⟨n, hn, hsn, hfed⟩ := hlistens.fed
      obtain ⟨r, post, hr, hpost, hreads, hread⟩ := hlistens.told
      refine .inr (.inl ⟨⟨n, hn, hsn, ?_⟩, hlistens.inbox, r, post, hr, ?_, hreads, ?_⟩)
      · rw [hfed, given_post hlog hsince (hbound _ n hn)]
      · rw [hlog, List.getElem?_append_left (hlt hpost), hpost]
      · intro m hm d q' hq' hkey hmd
        rcases hposts hq' with hq' | ⟨rfl, rfl⟩
        · exact hread m hm d q' hq' hkey hmd
        · exact hlt hpost
    · refine .inr (.inr ⟨hgone hlost.gone, hlost.inbox, fun hmem => hlost.pending (hrest _ hmem), ?_⟩)
      intro j post hpost hitem
      rcases hposts hpost with hpost | ⟨rfl, rfl⟩
      · exact hlost.unread j post hpost hitem
      · exact absurd (hitem ▸ hstart hitem) hlost.pending
  case unread =>
    intro hstarted j post hpost hitem n hn
    rcases hposts hpost with hpost | ⟨rfl, rfl⟩
    · exact h.unread hstarted j post hpost hitem n hn
    · exact hbound _ n hn
  case started => exact fun hstarted => hanswered (h.started hstarted)

/-- The cache answers, or fails to. -/
theorem Starting.answer (h : w.Starting uid g) (hlog : w'.log = w.log) (hmaster : w'.master = w.master)
    {answer : List δ} (hanswers : w'.answers uid = w.answers uid ++ [answer])
    (hrequest : ∃ post ∈ w.log, post.key.location = uid ∧ post.message = .requestCached)
    (hsaid : w'.said uid g.since = w.said uid g.since) {more : List (Key × Payload δ)}
    (hmore : Preceded (IsDone uid) (fun before => before.filterMap (answerIn uid) = answer) more)
    (hdata : more.filterMap (answerIn uid) = answer) (hold : w.apps cachedHome.uid ≠ none)
    (hcached : w'.said cachedHome.uid g.since <+: w.said cachedHome.uid g.since ++ more)
    (halive : w'.apps cachedHome.uid ≠ none →
      w.said cachedHome.uid g.since ++ more <+: w'.said cachedHome.uid g.since) : w'.Starting uid g := by
  have hmet : w.Met → w'.Met := Or.imp (fun hmet => hmaster ▸ hmet) fun hnone => absurd hnone hold
  have hgone : w.Gone → w'.Gone := fun hgone => absurd hgone.2 hold
  have htold : w'.told g.since = w.told g.since := by rw [told, told, hlog, hmaster]
  have hgiven : ∀ a b, w'.given uid a b = w.given uid a b := given_of_log hlog
  have hanswered : ∀ {data}, w.Answered uid data → w'.Answered uid data := fun hdata =>
    hdata.append hanswers
  -- the first answer is in what the cache has said, be it this one or one before
  have hfull : ∀ before : List (Key × Payload δ), before.filterMap (answerIn uid) = answer →
      w'.Answered uid ((w.said cachedHome.uid g.since ++ before).filterMap (answerIn uid)) := by
    intro before hbefore
    rw [List.filterMap_append, hbefore]
    cases hcase : w.answers uid with
    | nil =>
        rw [h.silent hcase, List.nil_append]
        exact ⟨answer, [], by rw [hanswers, hcase, List.nil_append], List.prefix_rfl⟩
    | cons answer' rest =>
        have hinitial := h.first answer' rest hcase hold
        exact ⟨answer', rest ++ [answer], by rw [hanswers, hcase, List.cons_append],
          hinitial.trans (List.prefix_append _ _)⟩
  constructor
  case late => exact hlog ▸ h.late
  case joined => exact h.joined
  case met =>
    rw [htold]
    exact fun item hitem hregisters => hmet (h.met item hitem hregisters)
  case asked =>
    rw [hsaid]
    exact fun k fromTime hitem => hmet (h.asked k fromTime hitem)
  case ready =>
    rw [htold]
    exact h.ready.mono fun before => Or.imp_left hgone
  case leaves =>
    rw [htold]
    exact h.leaves.mono fun before hbefore hreads => hgone (hbefore hreads)
  case starts => exact htold ▸ h.starts
  case done =>
    refine Preceded.of_prefix (preceded_append.mpr ⟨?_, ?_⟩) hcached
    · exact h.done.mono fun before => hanswered
    · exact hmore.mono hfull
  case first =>
    intro answer' rest hanswer hne
    obtain ⟨answer'', rest', hanswer', hinitial⟩ := hfull more hdata
    rw [hanswer, List.cons.injEq] at hanswer'
    exact hanswer'.1 ▸ hinitial.trans ((halive hne).filterMap _)
  case silent =>
    intro hnil
    rw [hanswers] at hnil
    simp at hnil
  case requested => exact fun _ => hlog ▸ hrequest
  case posted =>
    intro j post hpost hstart
    rw [hgiven]
    exact hanswered (h.posted j post (hlog ▸ hpost) hstart)
  case pending =>
    intro hpending
    rw [hgiven, hlog]
    exact hanswered (h.pending (hmaster ▸ hpending))
  case stage =>
    intro hstarted
    rcases h.stage hstarted with hwaits | hlistens | hlost
    · exact .inl ⟨hwaits.fed, hwaits.inbox, hsaid ▸ hwaits.silent, hlog ▸ hwaits.unread⟩
    · refine .inr (.inl ⟨?_, hlistens.inbox, hlog ▸ hlistens.told⟩)
      simp only [hgiven]
      exact hlistens.fed
    · exact .inr (.inr ⟨hgone hlost.gone, hlost.inbox, hmaster ▸ hlost.pending, hlog ▸ hlost.unread⟩)
  case unread => exact hlog ▸ h.unread
  case started => exact fun hstarted => hanswered (h.started hstarted)

/-! ## Steps of the application -/

section Read

variable {uids : List UInt32} (hapart : Apart uids) {p : Process δ} {i : ℕ}
  {post : Post Key Int64 (Payload δ)} {answer : List δ} {a : App δ}

/-- The application after it has read a post. -/
def readsTo (w : World δ) (p : Process δ) (i : ℕ) (post : Post Key Int64 (Payload δ)) (a : App δ) :
    Progress δ where
  since := p.since
  inbox := (p.inbox.take post.key i).adjust w.log a.joins.lookup
  started := a.started
  bank := a.bank

theorem masterKey_public : masterKey PUBLIC = ⟨masterHome.uid, PUBLIC⟩ := by
  simp [masterKey, writerLocation]

theorem masterKey_of_ne (h : uid ≠ PUBLIC) : masterKey uid = ⟨(masterCmdLocation uid).uid, uid⟩ := by
  simp [masterKey, writerLocation, h]

include hapart in
/-- The journals of the master are not those of an application. -/
theorem location_masterKey {dest : UInt32} (h : dest = PUBLIC ∨ dest ∈ uids) :
    (masterKey dest).location ∉ uids := by
  rcases h with rfl | h
  · rw [masterKey_public]
    exact hapart.master
  · have hne : dest ≠ PUBLIC := fun hpublic => hapart.reserved.1 (hpublic ▸ h)
    rw [masterKey_of_ne hne]
    exact hapart.cmd dest h

variable (hbase : Base uids w) (hsound : Sound uids w.log w.now uid p) (hne : uid ≠ cachedHome.uid)
  (hnext : p.inbox.next w.log = some (i, post))
  (ha : App.Moves answer post.key post.message (p.state.observe post.time) a)

include hbase hnext in
theorem sane_of_next : Sane uids post.item :=
  hbase.log post (List.mem_of_getElem? (Inbox.next_eq_some.mp hnext).1)

include hnext in
/-- The journal that is read is joined. -/
theorem inbox_of_next : ∃ n, p.inbox post.key = some n ∧ n ≤ i := by
  obtain ⟨-, ⟨n, hn, hle⟩, -⟩ := Inbox.next_eq_some.mp hnext
  exact ⟨n, hn, hle⟩

include hapart hbase hsound hne hnext in
/-- What the master has written to one application is read from its journal. -/
theorem key_of_next {message : Message} (hmessage : post.message = .master message)
    (hdest : post.key.dest ∈ uids) : post.key = masterKey uid := by
  have hsane := sane_of_next hbase hnext
  rw [Sane, show post.item.2 = .master message from hmessage] at hsane
  obtain ⟨n, hn, -⟩ := inbox_of_next hnext
  have hjoined := (hsound.joined _).mp (Option.isSome_iff_exists.mpr ⟨n, hn⟩)
  have hkey : post.key = masterKey post.key.dest := hsane.1
  rcases hsound.dests hne _ hjoined with heq | heq | heq
  · rw [hkey, heq]
  · exact absurd (heq ▸ hdest) hapart.reserved.1
  · exact absurd (heq ▸ hdest) hapart.reserved.2

include hbase hsound hnext ha in
/-- Journals of the master are not left. -/
theorem mem_joins_of_next {k : Key} (hk : (p.inbox k).isSome) (hlocation : k.location ∉ uids) :
    k ∈ a.joins := by
  rcases ha.kept k ((hsound.joined k).mp hk) with hkept | hleaves
  · exact hkept
  · have hsane := sane_of_next hbase hnext
    obtain ⟨key, time, message⟩ := post
    cases message with
    | master message =>
        cases message with
        | deregister location =>
            refine absurd ?_ hlocation
            rw [show k.location = location.uid from hleaves]
            exact hsane.2.2
        | _ => exact hleaves.elim
    | _ => exact hleaves.elim

include hbase hsound hnext ha in
theorem inbox_readsTo {k : Key} {n : ℕ} (hk : p.inbox k = some n) (hlocation : k.location ∉ uids) :
    (readsTo w p i post a).inbox k = some (if k = post.key then i + 1 else n) := by
  have hjoin := mem_joins_of_next hbase hsound hnext ha (Option.isSome_iff_exists.mpr ⟨n, hk⟩) hlocation
  show (p.inbox.take post.key i).adjust w.log (fun k => a.joins.lookup k) k = _
  exact Inbox.adjust_take hk (AList.lookup_isSome.mpr hjoin)

include hsound hnext ha in
/-- A journal that is new to the application. -/
theorem joins_of_readsTo {k : Key} {n : ℕ} (hk : p.inbox k = none)
    (hn : (readsTo w p i post a).inbox k = some n) :
    ∃ fromTime, (p.state.observe post.time).Joins post.message k fromTime ∧ n = seek w.log k fromTime := by
  obtain ⟨fromTime, hjoin, rfl⟩ := Option.map_eq_some_iff.mp hn
  obtain ⟨m, hm, -⟩ := inbox_of_next hnext
  have hkey : k ≠ post.key := by
    rintro rfl
    rw [hk] at hm
    cases hm
  rcases ha.joined k fromTime hjoin with hold | ⟨-, hjoins⟩
  · have hmem : k ∈ p.state.joins := AList.lookup_isSome.mp (Option.isSome_iff_exists.mpr ⟨fromTime, hold⟩)
    have hsome := (hsound.joined k).mpr hmem
    rw [hk] at hsome
    cases hsome
  · exact ⟨fromTime, hjoins, by rw [Inbox.take_of_ne hkey, hk, Option.getD_none]⟩

variable (post) in
include hsound hne in
theorem not_isCached : ¬ (p.state.observe post.time).isCached = true := fun hcached =>
  hne (hsound.isCached.mp hcached)

include hapart hbase hsound hne hnext in
/-- The journal of the master is read from the start of the application. -/
theorem fromTime_of_joins {fromTime : Int64}
    (h : (p.state.observe post.time).Joins post.message (masterKey uid) fromTime) :
    fromTime = p.state.beginTime := by
  have hpublic : uid ≠ PUBLIC := fun heq => hapart.reserved.1 (heq ▸ hsound.mem)
  have hsync : uid ≠ SYNC := fun heq => hapart.reserved.2 (heq ▸ hsound.mem)
  have hsane := sane_of_next hbase hnext
  have hcached := not_isCached post hsound hne
  obtain ⟨key, time, message⟩ := post
  cases message with
  | master message =>
      cases message with
      | register register =>
          rcases h with ⟨-, -, htime⟩ | ⟨hc, -⟩
          · exact htime
          · exact absurd hc hcached
      | requestReadFrom sourceId fromTime' =>
          have hlocation := location_masterKey hapart (.inr hsound.mem)
          rw [h.1] at hlocation
          exact absurd hsane.2.2 hlocation
      | requestReadFromPublic sourceId fromTime' => exact absurd h hpublic
      | requestReadFromSync sourceId fromTime' => exact absurd h hsync
      | channel channel => exact absurd h.1 hcached
      | _ => exact h.elim
  | _ => exact h.elim

include hapart hbase hsound hne hnext ha in
/-- What is unread of the journal of the master stays so, unless it is read. -/
theorem unread_readsTo {A : Key × Payload δ → Prop} (hkey : ∀ item, A item → item.1 = masterKey uid)
    (hlate : ∀ j q, w.log[j]? = some q → Concerns uid q.item → p.since ≤ j)
    (hunread : ∀ j q, w.log[j]? = some q → A q.item → ∀ n ∈ p.inbox (masterKey uid), n ≤ j)
    (hpost : ¬ A post.item) :
    ∀ j q, w.log[j]? = some q → A q.item → ∀ n ∈ (readsTo w p i post a).inbox (masterKey uid), n ≤ j := by
  intro j q hq hA n hn
  have hqkey : q.key = masterKey uid := hkey q.item hA
  cases hold : p.inbox (masterKey uid) with
  | none =>
      obtain ⟨fromTime, hjoins, rfl⟩ := joins_of_readsTo hsound hnext ha hold hn
      rw [fromTime_of_joins hapart hbase hsound hne hnext hjoins]
      refine Nat.le_of_not_lt fun hlt => ?_
      have hdest : q.key.dest = uid := by rw [hqkey, masterKey]
      exact not_le_of_lt_seek hlt hq hqkey (hsound.late j q (hlate j q hq (.inr (.inl hdest))) hq)
  | some m =>
      have hlocation := location_masterKey hapart (.inr hsound.mem)
      rw [inbox_readsTo hbase hsound hnext ha hold hlocation, Option.mem_some_iff] at hn
      have hmj := hunread j q hq hA m hold
      split at hn
      · have hle : ¬ j < i := fun hlt => by
          have := Inbox.lt_of_next hnext hlt hq (hqkey ▸ hold)
          omega
        have hne : j ≠ i := by
          rintro rfl
          have hpi := (Inbox.next_eq_some.mp hnext).1
          rw [hq, Option.some.injEq] at hpi
          exact hpost (hpi ▸ hA)
        omega
      · omega

include ha in
theorem fed_readsTo (hstarted : p.state.started = false) :
    (readsTo w p i post a).fed (answerKey uid) =
      p.progress.fed (answerKey uid) ++ (answerIn uid post.item).toList := by
  have hbank : a.bank = p.state.bank ++ (post.message.data?.map fun data => (post.key, data)).toList := by
    have hmoves := ha.bank
    cases hmessage : post.message with
    | state data => simpa [hmessage, hstarted, Payload.data?] using hmoves
    | _ => simpa [hmessage, Payload.data?] using hmoves
  rw [Progress.fed, Progress.fed, readsTo, Process.progress, hbank, List.filter_append, List.map_append]
  congr 1
  cases hdata : post.message.data? with
  | none => simp [answerIn, Post.item, hdata]
  | some data => by_cases hkey : post.key = answerKey uid <;> simp [answerIn, Post.item, hdata, hkey]

/-- What the cache has not answered is not given. -/
theorem given_eq_nil {since n : ℕ}
    (h : (w.said cachedHome.uid since).filterMap (answerIn uid) = []) : w.given uid since n = [] := by
  rw [List.filterMap_eq_nil_iff] at h
  refine List.filterMap_eq_nil_iff.mpr fun q hq => ?_
  obtain ⟨hkey, j, hj, -, hpost⟩ := mem_slice.mp hq
  cases hdata : (answerIn uid ∘ Post.item) q with
  | none => rfl
  | some data =>
      have hsaid : q.item ∈ w.said cachedHome.uid since := by
        refine mem_sent_drop.mpr (.inl ⟨j, q, hj, hpost, rfl, congrArg Key.location hkey, ?_⟩)
        rw [(answerIn_eq_some.mp hdata).2]
        exact id
      have hnone := h _ hsaid
      rw [show answerIn uid q.item = some data from hdata] at hnone
      cases hnone

/-- The cache does not answer before it is asked. -/
theorem Starting.unanswered (h : w.Starting uid g) (hwaits : w.Waits uid g) : w.answers uid = [] := by
  by_contra hanswers
  obtain ⟨q, hq, hlocation, hmessage⟩ := h.requested hanswers
  obtain ⟨j, hj⟩ := List.mem_iff_getElem?.mp hq
  have hlate := h.late j q hj (.inl hlocation)
  refine hwaits.silent q.key (mem_sent_drop.mpr (.inl ⟨j, q, hlate, hj, ?_, hlocation, id⟩))
  rw [Post.item, hmessage]

variable (h : w.Starting uid p.progress)

include h hnext in
theorem since_le_of_dest (hdest : post.key.dest = uid) : p.since ≤ i :=
  h.late i post (Inbox.next_eq_some.mp hnext).1 (.inr (.inl hdest))

theorem dest_of_masterKey {k : Key} (hk : k = masterKey uid) : k.dest = uid := by
  rw [hk, masterKey]

include hapart hbase hsound hnext ha in
/-- The journals of the master stay joined. -/
theorem exists_inbox_readsTo {dest : UInt32} (hdest : dest = PUBLIC ∨ dest ∈ uids) {n : ℕ}
    (hn : p.inbox (masterKey dest) = some n) :
    ∃ n', (readsTo w p i post a).inbox (masterKey dest) = some n' ∧ n ≤ n' := by
  refine ⟨_, inbox_readsTo hbase hsound hnext ha hn (location_masterKey hapart hdest), ?_⟩
  split
  · rename_i hkey
    have hle := Inbox.le_of_next hnext (hkey ▸ hn)
    omega
  · exact Nat.le_refl n

include hapart hbase hsound hnext ha h in
/-- Once it is told to, the application reads from the cache. -/
theorem Starting.listens (hstarted : p.state.started = false) (hwaits : w.Waits uid p.progress)
    (hreads : Reads uid post.item) : w.Listens uid (readsTo w p i post a) := by
  obtain ⟨hitem, fromTime, hmessage⟩ := hreads
  have hkey : post.key = masterKey uid := hitem
  have hpublic : uid ≠ PUBLIC := fun heq => hapart.reserved.1 (heq ▸ hsound.mem)
  have hdest : post.key.dest = uid := dest_of_masterKey hkey
  have hsince := since_le_of_dest hnext h hdest
  obtain ⟨m, hm, hmi⟩ := inbox_of_next hnext
  constructor
  · have hjoin : (a.joins.lookup (answerKey uid)).isSome := by
      have hmem := ha.reads cachedHome.uid fromTime hmessage
      rw [App.observe_home, hsound.home] at hmem
      exact AList.lookup_isSome.mpr hmem
    obtain ⟨time, htime⟩ := Option.isSome_iff_exists.mp hjoin
    have hne : answerKey uid ≠ post.key := by
      rintro heq
      have hnone := hwaits.inbox
      rw [heq] at hnone
      cases hm.symm.trans hnone
    have hinbox : (readsTo w p i post a).inbox (answerKey uid) = some (seek w.log (answerKey uid) time) := by
      show (p.inbox.take post.key i).adjust w.log (fun k => a.joins.lookup k) (answerKey uid) = _
      exact Inbox.adjust_of_none ((Inbox.take_of_ne hne).trans hwaits.inbox) htime
    refine ⟨_, hinbox, ?_, ?_⟩
    · refine le_seek hsound.since fun j q hj hq hqkey => ?_
      have hlate := h.late j q hq (.inr (.inl (congrArg Key.dest hqkey)))
      exact absurd hlate (Nat.not_le.mpr hj)
    · have hgiven : w.given uid p.since (seek w.log (answerKey uid) time) = [] :=
        given_eq_nil (h.silent (h.unanswered hwaits))
      have hdata : answerIn uid post.item = none := by simp [answerIn, hmessage, Payload.data?]
      rw [fed_readsTo ha hstarted, hwaits.fed, hdata]
      exact hgiven.symm
  · rw [hkey] at hm
    obtain ⟨n', hn', -⟩ := exists_inbox_readsTo hapart hbase hsound hnext ha (.inr hsound.mem) hm
    exact Option.isSome_iff_exists.mpr ⟨n', hn'⟩
  · refine ⟨i, post, hsince, (Inbox.next_eq_some.mp hnext).1, ⟨hitem, fromTime, hmessage⟩, ?_⟩
    intro n hn d q hq hqkey hnd
    obtain ⟨n₀, hn₀, -⟩ := h.joined
    rw [inbox_readsTo hbase hsound hnext ha hn₀ (location_masterKey hapart (.inl rfl)),
      Option.mem_some_iff, if_neg] at hn
    · refine Nat.lt_of_not_le fun hle => ?_
      rcases Nat.lt_or_eq_of_le hle with hlt | rfl
      · have := Inbox.lt_of_next hnext hlt hq (hqkey ▸ hn₀)
        omega
      · have hpi := (Inbox.next_eq_some.mp hnext).1
        rw [hq, Option.some.injEq] at hpi
        rw [hpi] at hqkey
        exact hpublic (hdest.symm.trans (dest_of_masterKey hqkey))
    · intro heq
      exact hpublic (hdest.symm.trans (dest_of_masterKey heq.symm))

include hapart hbase hsound hnext ha h in
/-- An application that is told that the cache is ready before it reads from it will not start: the
cache was gone when the master was asked. -/
theorem Starting.lost_of_ready (hwaits : w.Waits uid p.progress) (hready : IsReady uid post.item) :
    w.Lost uid (readsTo w p i post a) := by
  have hpost := (Inbox.next_eq_some.mp hnext).1
  have hkey : post.key = masterKey uid := congrArg Prod.fst hready
  have hsince := since_le_of_dest hnext h (dest_of_masterKey hkey)
  obtain ⟨n, hn, hni⟩ := inbox_of_next hnext
  have hnone : ∀ {data}, ¬ w.Answered uid data := fun hdata => hdata.ne_nil (h.unanswered hwaits)
  refine ⟨?_, ?_, fun hmem => hnone (h.pending hmem), ?_⟩
  · have hmaster : post.item.2.IsMaster := by
      rw [hready]
      trivial
    rcases h.ready.of_posted hsince hpost hmaster hready with hgone | ⟨item, hitem, hreads⟩
    · exact hgone
    · obtain ⟨r, q, hr, hri, hq, rfl, -⟩ := mem_sent_segment.mp hitem
      rw [hkey] at hn
      have hunread := hwaits.unread r q hq hreads n hn
      have hread := Inbox.lt_of_next hnext hri hq ((congrArg p.inbox hreads.1).trans hn)
      omega
  · rw [hkey] at hn
    obtain ⟨n', hn', -⟩ := exists_inbox_readsTo hapart hbase hsound hnext ha (.inr hsound.mem) hn
    exact Option.isSome_iff_exists.mpr ⟨n', hn'⟩
  · exact fun j q hq hstart => absurd (h.posted j q hq hstart) hnone

include hapart hbase hsound hne hnext in
/-- An application joins the journal of the answers only when it is told to. -/
theorem reads_of_joins {fromTime : Int64}
    (h : (p.state.observe post.time).Joins post.message (answerKey uid) fromTime) :
    Reads uid post.item := by
  have hpublic : uid ≠ PUBLIC := fun heq => hapart.reserved.1 (heq ▸ hsound.mem)
  have hsync : uid ≠ SYNC := fun heq => hapart.reserved.2 (heq ▸ hsound.mem)
  have hcached := not_isCached post hsound hne
  have hsane := sane_of_next hbase hnext
  have hkey : ∀ message, post.message = .master message → post.key.dest ∈ uids →
      post.key = masterKey uid :=
    fun message => key_of_next hapart hbase hsound hne hnext
  obtain ⟨key, time, message⟩ := post
  cases message with
  | master message =>
      cases message with
      | register register =>
          rcases h with ⟨-, hk, -⟩ | ⟨hc, -⟩
          · have hlocation : cachedHome.uid = (masterCmdLocation p.state.home.uid).uid :=
              congrArg Key.location hk
            rw [hsound.home] at hlocation
            exact absurd (hlocation ▸ hapart.cached) (hapart.cmd uid hsound.mem)
          · exact absurd hc hcached
      | requestReadFrom sourceId fromTime' =>
          have hsource : cachedHome.uid = sourceId := congrArg Key.location h.1
          exact ⟨hkey _ rfl hsane.2.1, fromTime', by rw [hsource]; rfl⟩
      | requestReadFromPublic sourceId fromTime' => exact absurd h hpublic
      | requestReadFromSync sourceId fromTime' => exact absurd h hsync
      | channel channel => exact absurd h.1 hcached
      | _ => exact h.elim
  | _ => exact h.elim

include hapart hbase hsound hne hnext in
/-- An application asks the cache only when it is told that the cache is ready. -/
theorem isReady_of_writes {dest : UInt32}
    (h : (p.state.observe post.time).Writes answer post.key.location post.message (dest, .requestCached)) :
    IsReady uid post.item := by
  cases h with
  | requestCached hready =>
      have hsane := sane_of_next hbase hnext
      rw [Sane, show post.item.2 = _ from hready] at hsane
      have hkey := key_of_next hapart hbase hsound hne hnext hready hsane.2
      rw [IsReady, Post.item, hkey, hready]

include hapart hbase hsound hne hnext ha h in
/-- Other posts leave an application waiting. -/
theorem Starting.waits (hstarted : p.state.started = false) (hwaits : w.Waits uid p.progress)
    (hreads : ¬ Reads uid post.item) (hready : ¬ IsReady uid post.item) (hlog : w'.log = w.log)
    (hsaid : w'.said uid p.since = w.said uid p.since ++
      ((p.state.observe post.time).outputs answer post.key.location post.message).map
        fun x => (⟨uid, x.1⟩, x.2)) : w'.Waits uid (readsTo w p i post a) := by
  obtain ⟨n, hn, hni⟩ := inbox_of_next hnext
  constructor
  · have hdata : answerIn uid post.item = none := by
      refine if_neg fun hkey => ?_
      cases hwaits.inbox.symm.trans ((congrArg p.inbox hkey.symm).trans hn)
    rw [fed_readsTo ha hstarted, hwaits.fed, hdata]
    rfl
  · refine Option.eq_none_iff_forall_ne_some.mpr fun m hm => ?_
    obtain ⟨fromTime, hjoins, -⟩ := joins_of_readsTo hsound hnext ha hwaits.inbox hm
    exact hreads (reads_of_joins hapart hbase hsound hne hnext hjoins)
  · intro k hitem
    rw [show (readsTo w p i post a).since = p.since from rfl, hsaid] at hitem
    rcases List.mem_append.mp hitem with hitem | hitem
    · exact hwaits.silent k hitem
    · obtain ⟨⟨dest, payload⟩, hx, heq⟩ := List.mem_map.mp hitem
      obtain ⟨-, rfl⟩ := Prod.mk.inj heq
      exact hready (isReady_of_writes hapart hbase hsound hne hnext (App.writes_of_mem hx))
  · rw [hlog]
    exact unread_readsTo hapart hbase hsound hne hnext ha (fun item hitem => hitem.1) h.late
      hwaits.unread hreads

include hapart hbase hsound hnext ha h in
/-- An application that leaves the cache will not start: it was not to before, and the cache is gone. -/
theorem Starting.lost_of_deregisters (hstarted : p.state.started = false)
    (hlistens : w.Listens uid p.progress) (hitem : Deregisters post.item) :
    w.Lost uid (readsTo w p i post a) := by
  have hpost := (Inbox.next_eq_some.mp hnext).1
  obtain ⟨location, hmessage, hlocation⟩ := id hitem
  have hsane := sane_of_next hbase hnext
  rw [Sane, hmessage] at hsane
  have hkey : post.key = masterKey PUBLIC := hsane.2.1 ▸ hsane.1
  have hmaster : post.item.2.IsMaster := by
    rw [hmessage]
    trivial
  obtain ⟨m, hm, hmi⟩ := inbox_of_next hnext
  obtain ⟨r, q, hr, hq, hreads, hread⟩ := hlistens.told
  have hri : r < i := hread m (hkey ▸ hm) i post hpost hkey hmi
  -- the application was told to read before
  have hbefore : ∃ item ∈ sent (fun item => item.2.IsMaster) (segment w.log p.since i) [],
      Reads uid item := by
    refine ⟨q.item, mem_sent_segment.mpr ⟨r, q, hr, hri, hq, rfl, ?_⟩, hreads⟩
    obtain ⟨-, fromTime, hmessage⟩ := hreads
    rw [hmessage]
    trivial
  have hsince : p.since ≤ i := by
    have hle : p.since ≤ r := hr
    omega
  obtain ⟨n, hn⟩ := Option.isSome_iff_exists.mp hlistens.inbox
  obtain ⟨n', hn', -⟩ := exists_inbox_readsTo hapart hbase hsound hnext ha (.inr hsound.mem) hn
  refine ⟨?_, Option.isSome_iff_exists.mpr ⟨n', hn'⟩, ?_, ?_⟩
  · exact h.leaves.of_posted hsince hpost hmaster hitem hbefore
  · intro hmem
    obtain ⟨before, hstarts⟩ := h.starts.of_mem_outbox hmem rfl
    exact hstarts.of_posted hsince hpost hmaster hitem hbefore
  · rintro j q' hq' hstart ⟨k, hk, hkj⟩
    have hnj : n ≤ j := h.unread hstarted j q' hq' hstart n hn
    have hq'key : q'.key = masterKey uid := congrArg Prod.fst hstart
    have hq'master : q'.item.2.IsMaster := by
      rw [hstart]
      trivial
    have hij : i < j := by
      refine Nat.lt_of_not_le fun hji => ?_
      rcases Nat.lt_or_eq_of_le hji with hlt | rfl
      · have := Inbox.lt_of_next hnext hlt hq' (hq'key ▸ hn)
        omega
      · rw [hpost, Option.some.injEq] at hq'
        rw [← hq', IsStart, Post.item, Prod.mk.injEq] at hstart
        cases hstart.2.symm.trans hmessage
    have hstarts := h.starts.of_posted (Nat.le_trans hsince (Nat.le_of_lt hij)) hq' hq'master hstart
    exact hstarts.of_segment hsince hij hpost hmaster hitem hbefore

include hapart hbase hsound hnext ha h in
/-- Other posts leave an application listening. -/
theorem Starting.keeps (hstarted : p.state.started = false) (hlistens : w.Listens uid p.progress)
    (hitem : ¬ Deregisters post.item) : w.Listens uid (readsTo w p i post a) := by
  obtain ⟨n, hn, hsn, hfed⟩ := hlistens.fed
  obtain ⟨r, q, hr, hq, hreads, hread⟩ := hlistens.told
  obtain ⟨m, hm⟩ := Option.isSome_iff_exists.mp hlistens.inbox
  obtain ⟨m', hm', -⟩ := exists_inbox_readsTo hapart hbase hsound hnext ha (.inr hsound.mem) hm
  refine ⟨?_, Option.isSome_iff_exists.mpr ⟨m', hm'⟩, r, q, hr, hq, hreads, ?_⟩
  · have hjoined : answerKey uid ∈ p.state.joins :=
      (hsound.joined _).mp (Option.isSome_iff_exists.mpr ⟨n, hn⟩)
    have hjoin : answerKey uid ∈ a.joins := by
      refine (ha.kept _ hjoined).resolve_right fun hleaves => hitem ?_
      obtain ⟨key, time, message⟩ := post
      cases message with
      | master message =>
          cases message with
          | deregister location => exact ⟨location, rfl, hleaves.symm⟩
          | _ => exact hleaves.elim
      | _ => exact hleaves.elim
    have hinbox : (readsTo w p i post a).inbox (answerKey uid) =
        some (if answerKey uid = post.key then i + 1 else n) := by
      show (p.inbox.take post.key i).adjust w.log (fun k => a.joins.lookup k) (answerKey uid) = _
      exact Inbox.adjust_take hn (AList.lookup_isSome.mpr hjoin)
    refine ⟨_, hinbox, ?_⟩
    rw [fed_readsTo ha hstarted, hfed]
    by_cases hkey : answerKey uid = post.key
    · rw [if_pos hkey]
      have hni := Inbox.le_of_next hnext (hkey ▸ hn)
      have hslice := Inbox.slice_next hnext (hkey ▸ hn) hsn
      rw [← hkey] at hslice
      refine ⟨Nat.le_trans hsn (Nat.le_succ_of_le hni), ?_⟩
      have hlast : [post].filterMap (answerIn uid ∘ Post.item) = (answerIn uid post.item).toList := by
        cases hdata : answerIn uid post.item <;> simp [hdata]
      show w.given uid p.since n ++ _ = w.given uid p.since (i + 1)
      rw [given, given, show slice w.log (answerKey uid) p.since (i + 1) = _ from hslice,
        List.filterMap_append, hlast]
      rfl
    · rw [if_neg hkey]
      have hdata : answerIn uid post.item = none := if_neg fun hitem => hkey hitem.symm
      refine ⟨hsn, ?_⟩
      rw [hdata, Option.toList_none, List.append_nil]
      rfl
  · intro k hk d q' hq' hkey hkd
    obtain ⟨n₀, hn₀, -⟩ := h.joined
    obtain ⟨n₁, hn₁, hle⟩ := exists_inbox_readsTo hapart hbase hsound hnext ha (.inl rfl) hn₀
    rw [hn₁, Option.mem_some_iff] at hk
    exact hread n₀ hn₀ d q' hq' hkey (by omega)

include hapart hbase hsound hnext ha in
/-- An application that is lost stays so. -/
theorem Lost.read (hlost : w.Lost uid p.progress) : w.Lost uid (readsTo w p i post a) := by
  obtain ⟨n, hn⟩ := Option.isSome_iff_exists.mp hlost.inbox
  obtain ⟨n', hn', hle⟩ := exists_inbox_readsTo hapart hbase hsound hnext ha (.inr hsound.mem) hn
  refine ⟨hlost.gone, Option.isSome_iff_exists.mpr ⟨n', hn'⟩, hlost.pending, ?_⟩
  rintro j q hq hstart ⟨k, hk, hkj⟩
  have hkey : q.key = masterKey uid := congrArg Prod.fst hstart
  rw [hkey, hn', Option.mem_some_iff] at hk
  exact hlost.unread j q hq hstart ⟨n, hkey ▸ hn, by omega⟩

include hapart hbase hsound hne hnext in
/-- What starts an application is written to its journal. -/
theorem isStart_of_message (hmessage : post.message = .master (.mark .RequestStart)) :
    IsStart uid post.item := by
  have hsane := sane_of_next hbase hnext
  rw [Sane, show post.item.2 = _ from hmessage] at hsane
  rw [IsStart, Post.item, key_of_next hapart hbase hsound hne hnext hmessage hsane.2, hmessage]

include hnext h in
/-- An application that starts has all that was answered. -/
theorem Starting.answered_of_start (hstarted : p.state.started = false) (hitem : IsStart uid post.item) :
    w.Answered uid (p.progress.fed (answerKey uid)) := by
  have hanswered := h.posted i post (Inbox.next_eq_some.mp hnext).1 hitem
  rcases h.stage hstarted with hwaits | hlistens | hlost
  · exact absurd (h.unanswered hwaits) hanswered.ne_nil
  · obtain ⟨n, hn, hsn, hfed⟩ := hlistens.fed
    rw [hfed]
    exact hanswered.mono ((Inbox.slice_prefix_of_next hnext hsn hn).filterMap _)
  · exact absurd (Inbox.next_eq_some.mp hnext).2.1
      (hlost.unread i post (Inbox.next_eq_some.mp hnext).1 hitem)

include hapart hbase hsound hne hnext h in
/-- An application that asks to read from the cache has met it. -/
theorem Starting.met_of_writes {dest : UInt32} {fromTime : Int64}
    (hwrites : (p.state.observe post.time).Writes answer post.key.location post.message
      (dest, .request (.requestReadFrom cachedHome.uid fromTime))) : w.Met := by
  have hpost := (Inbox.next_eq_some.mp hnext).1
  have hsane := sane_of_next hbase hnext
  obtain ⟨n, hn, hni⟩ := inbox_of_next hnext
  cases hwrites with
  | requestReadFrom hasks =>
      obtain ⟨key, time, message⟩ := post
      cases message with
      | master message =>
          cases message with
          | register register =>
              have hsince : p.since ≤ i := by
                rcases hsane.2 with hdest | hdest
                · obtain ⟨n₀, hn₀, hle⟩ := h.joined
                  have hkey : key = masterKey PUBLIC := hdest ▸ hsane.1
                  rw [← hkey] at hn₀
                  have heq : n₀ = n := Option.some.inj (hn₀.symm.trans hn)
                  exact Nat.le_trans hle (heq ▸ hni)
                · have hkey := key_of_next hapart hbase hsound hne hnext rfl hdest
                  exact since_le_of_dest hnext h (dest_of_masterKey hkey)
              exact h.met _ (mem_sent_drop.mpr (.inl ⟨i, _, hsince, hpost, rfl, trivial⟩))
                ⟨register, rfl, hasks.1⟩
          | _ => exact hasks.elim
      | _ => exact hasks.elim

include ha in
/-- An application that has not started had not, and reads nothing that starts it. -/
theorem not_started_of_readsTo (hstarted : a.started = false) :
    p.state.started = false ∧ ¬ IsStart uid post.item := by
  constructor
  · refine Bool.eq_false_iff.mpr fun htrue => ?_
    rw [ha.started.mpr (.inl htrue)] at hstarted
    cases hstarted
  · intro hitem
    rw [ha.started.mpr (.inr (congrArg Prod.snd hitem))] at hstarted
    cases hstarted

include hapart hbase hsound hne hnext ha h in
/-- Where an application is that reads on and has not started. -/
theorem Starting.stage_read (hlog : w'.log = w.log) (hmaster : w'.master = w.master)
    (hgone : w.Gone → w'.Gone)
    (hsaid : w'.said uid p.since = w.said uid p.since ++
      ((p.state.observe post.time).outputs answer post.key.location post.message).map
        fun x => (⟨uid, x.1⟩, x.2)) (hstarted : a.started = false) :
    w'.Waits uid (readsTo w p i post a) ∨ w'.Listens uid (readsTo w p i post a) ∨
      w'.Lost uid (readsTo w p i post a) := by
  obtain ⟨hold, hstart⟩ : p.state.started = false ∧ ¬ IsStart uid post.item :=
    not_started_of_readsTo ha hstarted
  have hlistens : w.Listens uid (readsTo w p i post a) → w'.Listens uid (readsTo w p i post a) := by
    rintro ⟨⟨n, hn, hsn, hfed⟩, hinbox, htold⟩
    exact ⟨⟨n, hn, hsn, hfed.trans (given_of_log hlog _ _).symm⟩, hinbox, hlog ▸ htold⟩
  have hlost : w.Lost uid (readsTo w p i post a) → w'.Lost uid (readsTo w p i post a) :=
    fun hlost => ⟨hgone hlost.gone, hlost.inbox, hmaster ▸ hlost.pending, hlog ▸ hlost.unread⟩
  rcases h.stage hold with hwaits | hreading | hend
  · by_cases hreads : Reads uid post.item
    · exact .inr (.inl (hlistens (h.listens hapart hbase hsound hnext ha hold hwaits hreads)))
    · by_cases hready : IsReady uid post.item
      · exact .inr (.inr (hlost (h.lost_of_ready hapart hbase hsound hnext ha hwaits hready)))
      · exact .inl (h.waits hapart hbase hsound hne hnext ha hold hwaits hreads hready hlog hsaid)
  · by_cases hitem : Deregisters post.item
    · exact .inr (.inr (hlost (h.lost_of_deregisters hapart hbase hsound hnext ha hold hreading hitem)))
    · exact .inr (.inl (hlistens (h.keeps hapart hbase hsound hnext ha hold hreading hitem)))
  · exact .inr (.inr (hlost (hend.read hapart hbase hsound hnext ha)))

include hapart hbase hsound hne hnext ha h in
/-- An application that has started when it has read has all that was answered. -/
theorem Starting.answered_of_readsTo (hstarted : a.started = true) :
    w.Answered uid ((readsTo w p i post a).fed (answerKey uid)) := by
  cases hold : p.state.started with
  | true =>
      have hbank : a.bank = p.state.bank := by
        have hmoves := ha.bank
        cases hmessage : post.message with
        | state data => simpa [hmessage, hold] using hmoves
        | _ => simpa [hmessage] using hmoves
      rw [Progress.fed, readsTo, hbank]
      exact h.started hold
  | false =>
      rcases ha.started.mp hstarted with htrue | hmessage
      · rw [App.observe_started, hold] at htrue
        cases htrue
      · have hitem := isStart_of_message hapart hbase hsound hne hnext hmessage
        have hdata : answerIn uid post.item = none := by
          rw [hitem, answerIn]
          split <;> rfl
        rw [fed_readsTo ha hold, hdata, Option.toList_none, List.append_nil]
        exact h.answered_of_start hnext hold hitem

include hapart hbase hsound hne hnext ha h in
/-- The application reads a post. -/
theorem Starting.read (hlog : w'.log = w.log) (hmaster : w'.master = w.master)
    (hanswers : w'.answers = w.answers) (halive : w'.apps cachedHome.uid = w.apps cachedHome.uid)
    (hcached : w'.said cachedHome.uid p.since = w.said cachedHome.uid p.since)
    (hsaid : w'.said uid p.since = w.said uid p.since ++
      ((p.state.observe post.time).outputs answer post.key.location post.message).map
        fun x => (⟨uid, x.1⟩, x.2)) : w'.Starting uid (readsTo w p i post a) := by
  have hmet : w.Met → w'.Met := Or.imp (fun hmet => hmaster ▸ hmet) fun hnone => halive.trans hnone
  have hgone : w.Gone → w'.Gone := fun hgone => ⟨hmaster ▸ hgone.1, halive.trans hgone.2⟩
  have htold : w'.told p.since = w.told p.since := by rw [told, told, hlog, hmaster]
  have hgiven : ∀ a b, w'.given uid a b = w.given uid a b := given_of_log hlog
  have hanswered : ∀ {data}, w.Answered uid data → w'.Answered uid data := fun hdata =>
    hdata.congr (congrFun hanswers uid)
  constructor
  case late => exact hlog ▸ h.late
  case joined =>
    obtain ⟨n, hn, hle⟩ := h.joined
    obtain ⟨n', hn', hle'⟩ := exists_inbox_readsTo hapart hbase hsound hnext ha (.inl rfl) hn
    exact ⟨n', hn', Nat.le_trans hle hle'⟩
  case met =>
    intro item hitem hregisters
    exact hmet (h.met item (htold ▸ hitem) hregisters)
  case asked =>
    intro k fromTime hitem
    rcases List.mem_append.mp (hsaid ▸ hitem) with hitem | hitem
    · exact hmet (h.asked k fromTime hitem)
    · obtain ⟨⟨dest, payload⟩, hx, heq⟩ := List.mem_map.mp hitem
      obtain ⟨-, rfl⟩ := Prod.mk.inj heq
      exact hmet (h.met_of_writes hapart hbase hsound hne hnext (App.writes_of_mem hx))
  case ready =>
    rw [show (readsTo w p i post a).since = p.since from rfl, htold]
    exact h.ready.mono fun before => Or.imp_left hgone
  case leaves =>
    rw [show (readsTo w p i post a).since = p.since from rfl, htold]
    exact h.leaves.mono fun before hbefore hreads => hgone (hbefore hreads)
  case starts => exact htold ▸ h.starts
  case done =>
    rw [show (readsTo w p i post a).since = p.since from rfl, hcached]
    exact h.done.mono fun before => hanswered
  case first =>
    intro answer rest hanswer hne
    rw [show (readsTo w p i post a).since = p.since from rfl, hcached]
    exact h.first answer rest (hanswers ▸ hanswer) (halive ▸ hne)
  case silent =>
    intro hnil
    rw [show (readsTo w p i post a).since = p.since from rfl, hcached]
    exact h.silent (hanswers ▸ hnil)
  case requested =>
    rw [hanswers, hlog]
    exact h.requested
  case posted =>
    intro j q hq hstart
    rw [hgiven]
    exact hanswered (h.posted j q (hlog ▸ hq) hstart)
  case pending =>
    intro hpending
    rw [hgiven, hlog]
    exact hanswered (h.pending (hmaster ▸ hpending))
  case stage =>
    exact h.stage_read hapart hbase hsound hne hnext ha hlog hmaster hgone hsaid
  case unread =>
    intro hstarted
    obtain ⟨hold, hstart⟩ : p.state.started = false ∧ ¬ IsStart uid post.item :=
      not_started_of_readsTo ha hstarted
    rw [hlog]
    exact unread_readsTo hapart hbase hsound hne hnext ha (fun item hitem => congrArg Prod.fst hitem)
      h.late (h.unread hold) hstart
  case started =>
    exact fun hstarted =>
      hanswered (h.answered_of_readsTo hapart hbase hsound hne hnext ha hstarted)

end Read

/-! ## Steps -/

section Steps

variable {uids : List UInt32} {p : Process δ} {u : UInt32}

theorem said_eq_of_outbox {since : ℕ} (hlog : w'.log = w.log) (houtbox : w'.outbox u = w.outbox u) :
    w'.said u since = w.said u since := by
  rw [said, said, hlog, houtbox]

theorem said_append_of_outbox {since : ℕ} {more : List (Key × Payload δ)} (hlog : w'.log = w.log)
    (houtbox : w'.outbox u = w.outbox u ++ more) : w'.said u since = w.said u since ++ more := by
  rw [said, said, hlog, houtbox, sent_append]

theorem outbox_of_update {process : Option (Process δ)}
    (happs : w'.apps = Function.update w.apps u process) :
    w'.outbox u = (process.map fun p => p.outbox).getD [] := by
  rw [outbox, happs, Function.update_self]

theorem outbox_of_update_of_ne {process : Option (Process δ)} {v : UInt32}
    (happs : w'.apps = Function.update w.apps u process) (hv : v ≠ u) : w'.outbox v = w.outbox v := by
  rw [outbox, outbox, happs, Function.update_of_ne hv]

/-- Another process goes on. -/
theorem Starting.update (h : w.Starting uid g) (hu : uid ≠ u) {process : Option (Process δ)}
    (hlog : w'.log = w.log) (hmaster : w'.master = w.master)
    (happs : w'.apps = Function.update w.apps u process) (hanswers : w'.answers uid = w.answers uid)
    {more : List (Key × Payload δ)} (hmore : ∀ x ∈ more, ¬ IsDone uid x ∧ answerIn uid x = none)
    (hprocess : u = cachedHome.uid → ∀ q, process = some q →
      w.apps cachedHome.uid ≠ none ∧ q.outbox = w.outbox cachedHome.uid ++ more) : w'.Starting uid g := by
  have hself : w'.said uid g.since = w.said uid g.since :=
    said_eq_of_outbox hlog (outbox_of_update_of_ne happs hu)
  have hsaid : ∀ x ∈ w'.said uid g.since, x ∈ w.said uid g.since ∨
      ((∀ fromTime, x.2 ≠ .request (.requestReadFrom cachedHome.uid fromTime)) ∧ x.2 ≠ .requestCached) := by
    rw [hself]
    exact fun x => .inl
  by_cases hcached : u = cachedHome.uid
  · subst hcached
    have houtbox := outbox_of_update happs
    cases process with
    | none =>
        refine h.idle hlog hmaster hanswers hsaid hmore ?_ ?_
        · rw [said, said, hlog, houtbox, sent, sent]
          simp
        · intro hne
          rw [happs, Function.update_self] at hne
          exact absurd rfl hne
    | some q =>
        obtain ⟨hold, hq⟩ := hprocess rfl q rfl
        have hall : w'.said cachedHome.uid g.since = w.said cachedHome.uid g.since ++ more :=
          said_append_of_outbox hlog (houtbox.trans hq)
        refine h.idle hlog hmaster hanswers hsaid hmore ?_ ?_
        · rw [hall]
        · rw [hall]
          exact fun _ => ⟨hold, List.prefix_append _ _⟩
  · have hsame : w'.said cachedHome.uid g.since = w.said cachedHome.uid g.since :=
      said_eq_of_outbox hlog (outbox_of_update_of_ne happs (Ne.symm hcached))
    have happ : w'.apps cachedHome.uid = w.apps cachedHome.uid := by
      rw [happs, Function.update_of_ne (Ne.symm hcached)]
    refine h.idle hlog hmaster hanswers hsaid (fun x hx => absurd hx List.not_mem_nil) ?_ ?_
    · rw [hsame, List.append_nil]
    · rw [hsame, happ]
      exact fun hne => ⟨hne, List.prefix_rfl⟩

/-- The application itself goes on, without a word to the cache. -/
theorem Starting.self (h : w.Starting uid g) (hne : uid ≠ cachedHome.uid) {process : Option (Process δ)}
    (hlog : w'.log = w.log) (hmaster : w'.master = w.master)
    (happs : w'.apps = Function.update w.apps uid process) (hanswers : w'.answers uid = w.answers uid)
    {more : List (Key × Payload δ)} (houtbox : w'.outbox uid = w.outbox uid ++ more)
    (hmore : ∀ x ∈ more, (∀ fromTime, x.2 ≠ .request (.requestReadFrom cachedHome.uid fromTime)) ∧
      x.2 ≠ .requestCached) : w'.Starting uid g := by
  have hsaid : w'.said uid g.since = w.said uid g.since ++ more :=
    said_append_of_outbox hlog houtbox
  have hsame : w'.said cachedHome.uid g.since = w.said cachedHome.uid g.since :=
    said_eq_of_outbox hlog (outbox_of_update_of_ne happs (Ne.symm hne))
  have happ : w'.apps cachedHome.uid = w.apps cachedHome.uid := by
    rw [happs, Function.update_of_ne (Ne.symm hne)]
  refine h.idle hlog hmaster hanswers ?_ (fun x hx => absurd hx List.not_mem_nil) ?_ ?_
  · rw [hsaid]
    exact fun x hx => (List.mem_append.mp hx).imp_right (hmore x)
  · rw [hsame, List.append_nil]
  · rw [hsame, happ]
    exact fun hne => ⟨hne, List.prefix_rfl⟩

/-- What the master writes, as it is posted. -/
def letters (written : List Written) : List (Key × Payload δ) :=
  written.map fun x => (masterKey x.dest, .master x.message)

theorem mem_letters {written : List Written} {dest : UInt32} {message : Message} :
    (masterKey dest, (.master message : Payload δ)) ∈ letters written ↔
      ∃ x ∈ written, x.dest = dest ∧ x.message = message := by
  rw [letters, List.mem_map]
  refine exists_congr fun x => and_congr_right fun _ => ?_
  constructor
  · intro heq
    obtain ⟨hkey, hmessage⟩ := Prod.mk.inj heq
    exact ⟨congrArg Key.dest hkey, Payload.master.inj hmessage⟩
  · rintro ⟨rfl, rfl⟩
    rfl

/-- What the master may do while an application starts. -/
structure Permits (w : World δ) (uid : UInt32) (since : ℕ) (m : Master) : Prop where
  met : w.Met → cachedHome.uid ∈ m.registry ∨ w.apps cachedHome.uid = none
  gone : w.Gone → cachedHome.uid ∉ m.registry
  registers : ∀ x ∈ m.written, ∀ register, x.message = .register register →
    register.location.uid ∈ m.registry
  ready : Preceded (IsReady uid) (fun before =>
    (cachedHome.uid ∉ m.registry ∧ w.apps cachedHome.uid = none) ∨ ∃ item ∈ before, Reads uid item)
    (letters (δ := δ) m.written)
  leaves : ∀ x ∈ m.written, ∀ location, x.message = .deregister location →
    location.uid = cachedHome.uid → cachedHome.uid ∉ m.registry ∧ w.apps cachedHome.uid = none
  start : ∀ x ∈ m.written, x.dest = uid → x.message = .mark .RequestStart →
    ¬ w.Gone ∧ w.Answered uid (w.given uid since w.log.length) ∧
      ∀ y ∈ m.written, ∀ location, y.message ≠ .deregister location

/-- The master runs its handlers. -/
theorem Starting.masterRuns (h : w.Starting uid g) (hready : w.MasterReady) {inbox : Inbox Key}
    {run : Master → Except Fault Master}
    (hrun : ∀ m, run w.master.state = .ok m → w.Permits uid g.since m) :
    (w.masterRuns inbox run).Starting uid g := by
  unfold World.masterRuns
  cases hm : run w.master.state with
  | error fault =>
      exact h.idle rfl rfl rfl (fun _ => .inl) (fun x hx => absurd hx List.not_mem_nil) (by rw [List.append_nil]; rfl)
        fun hne => ⟨hne, List.prefix_rfl⟩
  | ok m =>
      have hpermits := hrun m hm
      refine h.tell (List.length_eq_zero_iff.mp hready.2) rfl rfl rfl hpermits.met
        (fun hgone => ⟨hpermits.gone hgone, hgone.2⟩) ?_ hpermits.ready ?_ ?_
      · rintro item hitem ⟨register, hmessage, hregister⟩
        obtain ⟨x, hx, rfl⟩ := List.mem_map.mp hitem
        exact .inl (hregister ▸ hpermits.registers x hx register (Payload.master.inj hmessage))
      · rintro item hitem ⟨location, hmessage, hlocation⟩
        obtain ⟨x, hx, rfl⟩ := List.mem_map.mp hitem
        exact hpermits.leaves x hx location (Payload.master.inj hmessage) hlocation
      · intro hmem
        obtain ⟨x, hx, hdest, hmessage⟩ := mem_letters.mp hmem
        obtain ⟨hnot, hanswered, hnone⟩ := hpermits.start x hx hdest hmessage
        refine ⟨hnot, hanswered, ?_⟩
        rintro item hitem ⟨location, hmessage, -⟩
        obtain ⟨y, hy, rfl⟩ := List.mem_map.mp hitem
        exact hnone y hy location (Payload.master.inj hmessage)

variable (hbase : Base uids w)

/-- What leaves the registrations as they are, and does not tell of the start. -/
theorem permits_of_forall {m : Master} (hmet : w.Met → cachedHome.uid ∈ m.registry ∨ w.apps cachedHome.uid = none)
    (hgone : w.Gone → cachedHome.uid ∉ m.registry) (htold : ∀ x ∈ m.written, Told uids m x)
    (hready : ∀ x ∈ m.written, x.message ≠ .mark .CachedReadyToRead)
    (hstart : ∀ x ∈ m.written, x.message ≠ .mark .RequestStart)
    (hleaves : ∀ x ∈ m.written, ∀ location, x.message = .deregister location →
      location.uid = cachedHome.uid → cachedHome.uid ∉ m.registry ∧ w.apps cachedHome.uid = none)
    {since : ℕ} : w.Permits uid since m where
  met := hmet
  gone := hgone
  registers x hx := (htold x hx).registered
  ready := by
    refine preceded_of_forall_not fun item hitem hitem' => ?_
    obtain ⟨x, hx, rfl⟩ := List.mem_map.mp hitem
    exact hready x hx (Payload.master.inj (Prod.mk.inj hitem').2)
  leaves := hleaves
  start x hx _ hmessage := absurd hmessage (hstart x hx)

include hbase in
theorem permits_chore {chore : Chore} {m : Master} {since : ℕ}
    (hm : w.master.state.step chore.step = .ok m) : w.Permits uid since m := by
  have hissues := (issues_chore w.master.state chore).of_ok hm
  have htold := (hbase.master.issues hbase.written hissues fun _ => IsChore.told).told
  obtain ⟨more, hwritten, hchore⟩ := hissues.written
  rw [hbase.written, List.nil_append] at hwritten
  have hregistry := hissues.registry
  refine permits_of_forall (hregistry ▸ id) (fun hgone => hregistry ▸ hgone.1) htold ?_ ?_ ?_
  all_goals rw [hwritten]
  · intro x hx hmessage
    have hx := hchore x hx
    rw [IsChore, hmessage] at hx
    exact hx
  · intro x hx hmessage
    have hx := hchore x hx
    rw [IsChore, hmessage] at hx
    exact hx
  · intro x hx location hmessage
    have hx := hchore x hx
    rw [IsChore, hmessage] at hx
    exact hx.elim

include hbase in
theorem permits_register {register : Register} {genTime : Int64} {clock : Clock} {m : Master} {since : ℕ}
    (huid : register.location.uid ∈ uids) (happ : w.apps register.location.uid ≠ none)
    (hm : w.master.state.registerApp genTime clock register = .ok m) : w.Permits uid since m := by
  have henrolls := (Master.enrolls_registerApp w.master.state genTime clock register).of_ok hm
  have htold := (hbase.master.register hbase.written huid hm).told
  obtain ⟨more, hwritten, hnotice⟩ := henrolls.written
  rw [hbase.written, List.nil_append] at hwritten
  refine permits_of_forall (Or.imp_left (henrolls.kept _)) ?_ htold ?_ ?_ ?_
  · rintro ⟨hunregistered, hnone⟩ hmem
    obtain ⟨r, hentry⟩ := Table.exists_of_mem hmem
    rcases henrolls.registry _ hentry with hentry | ⟨hkey, -⟩
    · exact hunregistered (Table.mem_of_mem_entries hentry)
    · exact happ (hkey ▸ hnone)
  all_goals rw [hwritten]
  · intro x hx hmessage
    have hx := hnotice x hx
    rw [Master.Notice, hmessage] at hx
    exact hx
  · intro x hx hmessage
    have hx := hnotice x hx
    rw [Master.Notice, hmessage] at hx
    exact hx
  · intro x hx location hmessage
    have hx := hnotice x hx
    rw [Master.Notice, hmessage] at hx
    exact hx.elim

include hbase in
theorem permits_deregister (hapart : Apart uids) {time : Int64} {m : Master} {since : ℕ} (hdead : w.IsDead u)
    (hm : w.master.state.deregisterApp time u = .ok m) : w.Permits uid since m := by
  have htold := (hbase.master.deregister hbase.written hapart.reserved.1 hdead.2 hm).told
  obtain ⟨htables, location, hlocation, hwritten⟩ := Master.written_deregisterApp hbase.master.consistent hm
  rw [hbase.written, List.nil_append] at hwritten
  have hregistry : m.registry = w.master.state.registry.erase u := by
    rw [htables]
    rfl
  have hnone : u = cachedHome.uid → w.apps cachedHome.uid = none := by
    rintro rfl
    exact Option.isNone_iff_eq_none.mp hdead.1
  refine permits_of_forall ?_ ?_ htold ?_ ?_ ?_
  · rintro (hmem | hdead)
    · by_cases heq : u = cachedHome.uid
      · exact .inr (hnone heq)
      · rw [hregistry]
        exact .inl (AList.mem_erase.mpr ⟨Ne.symm heq, hmem⟩)
    · exact .inr hdead
  · rintro ⟨hunregistered, -⟩ hmem
    rw [hregistry] at hmem
    exact hunregistered (AList.mem_erase.mp hmem).2
  all_goals rw [hwritten]
  · intro x hx
    rcases List.mem_pair.mp hx with rfl | rfl <;> nofun
  · intro x hx
    rcases List.mem_pair.mp hx with rfl | rfl <;> nofun
  · intro x hx location' hmessage hcached
    rcases List.mem_pair.mp hx with rfl | rfl
    · cases hmessage
    · cases hmessage
      have heq : u = cachedHome.uid := hlocation.symm.trans hcached
      refine ⟨fun hmem => ?_, hnone heq⟩
      rw [hregistry, heq] at hmem
      exact (AList.mem_erase.mp hmem).1 rfl

section Frame

variable {i : ℕ} {post : Post Key Int64 (Payload δ)} {frameLength : UInt32} {clock : Clock} {m : Master}
  (hnext : w.master.inbox.next w.log = some (i, post))

theorem eq_of_event {event : Master.Event} (h : post.message.event = event) (hother : event ≠ .other) :
    post.message = .request event := by
  obtain ⟨key, time, message⟩ := post
  cases message with
  | request event' => exact congrArg Payload.request h
  | _ => exact absurd h.symm hother

include hbase hnext in
theorem registered_of_next : post.key.location ∈ w.master.state.registry := by
  obtain ⟨-, ⟨n, hn, -⟩, -⟩ := Inbox.next_eq_some.mp hnext
  exact hbase.master.joined _ (hbase.inbox _ (Option.isSome_iff_exists.mpr ⟨n, hn⟩))

/-- What the cache has posted up to a position, of what is answered. -/
theorem filterMap_said {since : ℕ} :
    (sent (fun item => item.1.location = cachedHome.uid ∧ ¬ item.2.IsMaster) (segment w.log since i)
      []).filterMap (answerIn uid) = w.given uid since i := by
  rw [filterMap_sent, List.filterMap_nil, List.append_nil, filterMap_segment, given]
  · intro item hitem
    obtain ⟨data, hdata⟩ := Option.isSome_iff_exists.mp hitem
    exact (answerIn_eq_some.mp hdata).1
  · intro item hitem
    obtain ⟨data, hdata⟩ := Option.isSome_iff_exists.mp hitem
    obtain ⟨hkey, hstate⟩ := answerIn_eq_some.mp hdata
    refine ⟨congrArg Key.location hkey, ?_⟩
    rw [hstate]
    exact id

include hbase hnext in
/-- The master is told by the cache that it is done with an application after all of the answer. -/
theorem Starting.answered_of_done (h : w.Starting uid g)
    (hmessage : post.message = .request (.requestCachedDone uid)) :
    ¬ w.Gone ∧ w.Answered uid (w.given uid g.since w.log.length) := by
  have hpost := (Inbox.next_eq_some.mp hnext).1
  have hsane := hbase.log post (List.mem_of_getElem? hpost)
  have hlocation : post.key.location = cachedHome.uid := by
    rw [Sane, show post.item.2 = _ from hmessage] at hsane
    exact hsane.1
  have hregistered := registered_of_next hbase hnext
  rw [hlocation] at hregistered
  refine ⟨fun hgone => hgone.1 hregistered, ?_⟩
  have hlate := h.late i post hpost (.inr (.inr hmessage))
  have hkind : post.item.1.location = cachedHome.uid ∧ ¬ post.item.2.IsMaster := by
    refine ⟨hlocation, ?_⟩
    rw [show post.item.2 = _ from hmessage]
    exact id
  have hanswered := h.done.of_posted hlate hpost hkind hmessage
  rw [filterMap_said] at hanswered
  exact hanswered.mono (given_initial hlate (Nat.le_of_lt (List.getElem?_eq_some_iff.mp hpost).1))

include hbase hnext in
/-- The master tells an application that the cache is ready after it has told it to read, unless the
cache is gone. -/
theorem Starting.ready_of_request (h : w.Starting uid g) {fromTime : Int64}
    (hlocation : post.key.location = uid)
    (hmessage : post.message = .request (.requestReadFrom cachedHome.uid fromTime))
    (hm : w.master.state.step
      (.frame post.key.location post.time frameLength clock post.message.event) = .ok m) :
    Preceded (IsReady uid) (fun before =>
      (cachedHome.uid ∉ w.master.state.registry ∧ w.apps cachedHome.uid = none) ∨
        ∃ item ∈ before, Reads uid item) (letters (δ := δ) m.written) := by
  have hpost := (Inbox.next_eq_some.mp hnext).1
  rw [hlocation, hmessage] at hm
  obtain ⟨marks, hwritten, hmarks⟩ := Master.written_requestReadFrom hbase.master.consistent
    (hlocation ▸ registered_of_next hbase hnext) hm
  have hlate := h.late i post hpost (.inl hlocation)
  have hkind : post.item.1.location = uid ∧ ¬ post.item.2.IsMaster := by
    refine ⟨hlocation, ?_⟩
    rw [show post.item.2 = _ from hmessage]
    exact id
  by_cases hregistered : cachedHome.uid ∈ w.master.state.registry
  · rw [hwritten, hbase.written, if_pos hregistered, List.nil_append, letters, List.map_append,
      preceded_append]
    constructor
    · refine preceded_of_forall_not fun item hitem hready => ?_
      rw [show item = _ from hready] at hitem
      simp at hitem
    · refine preceded_of_prefix fun before _ => .inr ⟨(masterKey uid,
        .master (.requestReadFrom cachedHome.uid fromTime)), ?_, rfl, fromTime, rfl⟩
      simp
  · have hitem : (post.key, .request (.requestReadFrom cachedHome.uid fromTime)) = post.item := by
      rw [Post.item, hmessage]
    have hasked : w.Met := by
      refine h.asked post.key fromTime (mem_sent_drop.mpr (.inl ⟨i, post, hlate, hpost, ?_, ?_⟩))
      · exact hitem.symm
      · exact hitem ▸ hkind
    exact preceded_of_prefix fun _ _ => .inl ⟨hregistered, hasked.resolve_left hregistered⟩

include hbase hnext in
theorem Starting.permits_frame (h : w.Starting uid g)
    (hm : w.master.state.step
      (.frame post.key.location post.time frameLength clock post.message.event) = .ok m) :
    w.Permits uid g.since m := by
  have hsource := registered_of_next hbase hnext
  have hissues := (Master.replies_step hsource hbase.master.channels post.time frameLength clock
    post.message.event).of_ok hm
  have hregistry := hissues.registry
  obtain ⟨more, hwritten, hreply⟩ := hissues.written
  rw [hbase.written, List.nil_append] at hwritten
  have hdone : ∀ destId, post.message.event = .requestCachedDone destId → destId ∈ uids := by
    intro destId hevent
    have hsane := hbase.log post (List.mem_of_getElem? (Inbox.next_eq_some.mp hnext).1)
    rw [Sane, show post.item.2 = _ from eq_of_event hevent (by simp)] at hsane
    exact hsane.2
  have htold := (hbase.master.frame hbase.written hsource hdone hm).told
  refine ⟨hregistry ▸ id, fun hgone => hregistry ▸ hgone.1, fun x hx => (htold x hx).registered, ?_,
    ?_, ?_⟩
  · by_cases hready : ∃ x ∈ m.written, x.dest = uid ∧ x.message = .mark .CachedReadyToRead
    · obtain ⟨x, hx, hdest, hmessage⟩ := hready
      have hx := hreply x (hwritten ▸ hx)
      rw [Master.Reply, hmessage] at hx
      obtain ⟨hxsource, fromTime, hevent⟩ := hx
      have hready := h.ready_of_request hbase hnext (hxsource.symm.trans hdest)
        (eq_of_event hevent (by simp)) hm
      rw [hregistry]
      exact hready
    · refine preceded_of_forall_not fun item hitem hitem' => hready ?_
      rw [hitem'] at hitem
      exact mem_letters.mp hitem
  · intro x hx location hmessage
    have hx := hreply x (hwritten ▸ hx)
    rw [Master.Reply, hmessage] at hx
    exact hx.elim
  · intro x hx hdest hmessage
    have hx := hreply x (hwritten ▸ hx)
    rw [Master.Reply, hmessage, hdest] at hx
    obtain ⟨hnot, hanswered⟩ := h.answered_of_done hbase hnext (eq_of_event hx (by simp))
    refine ⟨hnot, hanswered, fun y hy location hmessage => ?_⟩
    have hy := hreply y (hwritten ▸ hy)
    rw [Master.Reply, hmessage] at hy
    exact hy

end Frame

end Steps

end World

end Startup

end Kungfu.Practice
