import Kungfu.Api.MarketData
import Kungfu.Logic.Outcome
import Kungfu.Logic.Run

/-!
# Subscriptions that are told again

The broker client keeps what was subscribed to, to tell it to a source that comes back.  An
instrument has a source of its own, or that of its exchange.  Both are kept as they were when they
came first, and an instrument that is unsubscribed without its source keeps the source.
-/

namespace Kungfu.Api

open Longfist Logic

/-- The overloads of `Client::subscribe` and `Client::unsubscribe`. -/
inductive ReplayCall
  | subscribeKey (key : InstrumentKey)
  | subscribe (exchangeId instrumentId : String)
  | subscribeAt (md : UInt32) (exchangeId instrumentId : String)
  | unsubscribe (exchangeId instrumentId : String)
  | unsubscribeAt (md : UInt32) (exchangeId instrumentId : String)

/-- `hash_instrument`, of the texts that a caller passes. -/
def keyOf (exchangeId instrumentId : String) : UInt32 :=
  hashInstrument (cStr exchangeId) (cStr instrumentId)

/-- An instrument, as its exchange and its id there. -/
def InstrumentKey.ids (key : InstrumentKey) : String × String := (key.exchangeId, key.instrumentId)

namespace BrokerClient

section Model

variable (c : BrokerClient)

/-- `subscribe` of an `InstrumentKey`. -/
def subscribeKey (key : InstrumentKey) : BrokerClient :=
  { c with instrumentKeys := Table.tryEmplace key.key key c.instrumentKeys }

/-- `subscribe` of an instrument. -/
def subscribeIds (exchangeId instrumentId : String) : Except Wingchun.Fault BrokerClient :=
  if keyOf exchangeId instrumentId ∈ c.instrumentKeys then .ok c
  else do
    let key ← ApiService.instrumentKeyOf exchangeId instrumentId
    return c.subscribeKey key

/-- `subscribe` of an instrument at a source. -/
def subscribeIdsAt (md : UInt32) (exchangeId instrumentId : String) :
    Except Wingchun.Fault BrokerClient := do
  let c ← c.subscribeIds exchangeId instrumentId
  return { c with
    exchangeMdLocations := Table.tryEmplace exchangeId md c.exchangeMdLocations
    instrumentMdLocations :=
      Table.tryEmplace (keyOf exchangeId instrumentId) md c.instrumentMdLocations }

def handle : ReplayCall → Except Wingchun.Fault BrokerClient
  | .subscribeKey key => .ok (c.subscribeKey key)
  | .subscribe exchangeId instrumentId => c.subscribeIds exchangeId instrumentId
  | .subscribeAt md exchangeId instrumentId => c.subscribeIdsAt md exchangeId instrumentId
  | .unsubscribe exchangeId instrumentId => .ok (c.unsubscribe (keyOf exchangeId instrumentId))
  | .unsubscribeAt _ exchangeId instrumentId =>
      .ok (c.unsubscribeAt (keyOf exchangeId instrumentId))

/-- The source of a key at an exchange. -/
def sourceAt (key : UInt32) (exchangeId : String) : Option UInt32 :=
  match c.instrumentMdLocations.lookup key with
  | some md => some md
  | none => c.exchangeMdLocations.lookup exchangeId

end Model

variable {c : BrokerClient} {exchangeId instrumentId : String} {key : InstrumentKey} {md : UInt32}

theorem sourceLocation_eq : c.sourceLocation key = c.sourceAt key.key key.exchangeId := rfl

/-- The sources of the client after an instrument was subscribed to at a source. -/
theorem sourceAt_subscribeAt {c' : BrokerClient} {k k' : UInt32} {exchangeId' : String}
    (hexchange : c'.exchangeMdLocations = Table.tryEmplace exchangeId md c.exchangeMdLocations)
    (hinstrument : c'.instrumentMdLocations = Table.tryEmplace k md c.instrumentMdLocations) :
    c'.sourceAt k' exchangeId' =
      if k' = k then some ((c.instrumentMdLocations.lookup k).getD md)
      else if exchangeId' = exchangeId then some ((c.sourceAt k' exchangeId').getD md)
      else c.sourceAt k' exchangeId' := by
  rw [sourceAt, hinstrument, hexchange, Table.lookup_tryEmplace_apply,
    Table.lookup_tryEmplace_apply, sourceAt]
  by_cases hk : k' = k
  · rw [if_pos hk, if_pos hk]
  · rw [if_neg hk, if_neg hk]
    cases hlookup : c.instrumentMdLocations.lookup k' with
    | none =>
        dsimp only
        split
        · rename_i hexchangeId
          rw [hexchangeId]
        · rfl
    | some md' => simp

end BrokerClient

/-! ## What is wanted -/

/-- The instruments that are subscribed to, with the source that was named for them, if one was,
and the source that was named last for an instrument of an exchange. -/
structure Wanted where
  source : String × String → Option (Option UInt32)
  bound : String → Option UInt32

namespace Wanted

def after (w : Wanted) : ReplayCall → Wanted
  | .subscribeKey key => { w with source := Function.update w.source key.ids (some none) }
  | .subscribe exchangeId instrumentId =>
      { w with
        source := Function.update w.source (cStr exchangeId, cStr instrumentId) (some none) }
  | .subscribeAt md exchangeId instrumentId =>
      { source := Function.update w.source (cStr exchangeId, cStr instrumentId) (some (some md))
        bound := Function.update w.bound (cStr exchangeId) (some md) }
  | .unsubscribe exchangeId instrumentId =>
      { w with source := Function.update w.source (cStr exchangeId, cStr instrumentId) none }
  | .unsubscribeAt _ exchangeId instrumentId =>
      { w with source := Function.update w.source (cStr exchangeId, cStr instrumentId) none }

/-- The source that is to be told of an instrument. -/
def sourceOf (w : Wanted) (ids : String × String) : Option UInt32 :=
  match w.source ids with
  | none => none
  | some none => w.bound ids.1
  | some (some md) => some md

variable {w : Wanted} {ids : String × String} {md : UInt32}

theorem sourceOf_of_unnamed (h : w.source ids = some none) : w.sourceOf ids = w.bound ids.1 := by
  rw [sourceOf, h]

theorem sourceOf_of_named (h : w.source ids = some (some md)) : w.sourceOf ids = some md := by
  rw [sourceOf, h]

end Wanted

/-- A broker client, and what was asked of it. -/
structure Replayed where
  client : BrokerClient
  wanted : Wanted

namespace Replayed

def start : Replayed := ⟨⟨∅, ∅, ∅⟩, ⟨fun _ => none, fun _ => none⟩⟩

/-- A call; one that throws changes nothing. -/
def step (s : Replayed) (call : ReplayCall) : Replayed :=
  match s.client.handle call with
  | .ok client => ⟨client, s.wanted.after call⟩
  | .error _ => s

/-- A source is told of its instruments, of each one once and of no others. -/
def Renews (s : Replayed) : Prop :=
  ∀ md, ((s.client.renewed md).map InstrumentKey.ids).Nodup ∧
    ∀ ids, ids ∈ (s.client.renewed md).map InstrumentKey.ids ↔ s.wanted.sourceOf ids = some md

/-- No other instrument is subscribed to under a key, and the instrument under no other key. -/
def Owns (s : Replayed) (key : UInt32) (ids : String × String) : Prop :=
  ∀ entry ∈ s.client.instrumentKeys.entries, entry.1 = key ↔ entry.2.ids = ids

instance (s : Replayed) (key : UInt32) (ids : String × String) : Decidable (s.Owns key ids) :=
  inferInstanceAs (Decidable (∀ entry ∈ s.client.instrumentKeys.entries, _))

/-- No instrument of an exchange that is subscribed to without a source relies on another one. -/
def Relies (s : Replayed) (md : UInt32) (ids : String × String) : Prop :=
  ∀ entry ∈ s.client.instrumentKeys.entries, entry.2.exchangeId = ids.1 → entry.2.ids ≠ ids →
    s.wanted.source entry.2.ids = some none → s.wanted.bound ids.1 ∈ [none, some md]

instance (s : Replayed) (md : UInt32) (ids : String × String) : Decidable (s.Relies md ids) :=
  inferInstanceAs (Decidable (∀ entry ∈ s.client.instrumentKeys.entries, _))

/-- A call about an instrument with a key of its own, whose source is none that is kept from
before: named, it is the one that is kept if one is, and no other instrument relies on another one
for the exchange; else what is kept is what was named last for the exchange. -/
def Plain (s : Replayed) : ReplayCall → Prop
  | .subscribeKey key =>
      s.Owns key.key key.ids ∧ s.client.sourceLocation key = s.wanted.bound key.exchangeId
  | .subscribe exchangeId instrumentId =>
      IdsFit exchangeId instrumentId ∧
        s.Owns (keyOf exchangeId instrumentId) (exchangeId, instrumentId) ∧
        s.client.sourceAt (keyOf exchangeId instrumentId) exchangeId = s.wanted.bound exchangeId
  | .subscribeAt md exchangeId instrumentId =>
      IdsFit exchangeId instrumentId ∧
        s.Owns (keyOf exchangeId instrumentId) (exchangeId, instrumentId) ∧
        s.client.instrumentMdLocations.lookup (keyOf exchangeId instrumentId) ∈ [none, some md] ∧
        s.Relies md (exchangeId, instrumentId)
  | .unsubscribe exchangeId instrumentId =>
      s.Owns (keyOf exchangeId instrumentId) (cStr exchangeId, cStr instrumentId)
  | .unsubscribeAt _ exchangeId instrumentId =>
      s.Owns (keyOf exchangeId instrumentId) (cStr exchangeId, cStr instrumentId)

instance (s : Replayed) : DecidablePred s.Plain
  | .subscribeKey _ => inferInstanceAs (Decidable (_ ∧ _))
  | .subscribe _ _ => inferInstanceAs (Decidable (_ ∧ _ ∧ _))
  | .subscribeAt _ _ _ => inferInstanceAs (Decidable (_ ∧ _ ∧ _ ∧ _))
  | .unsubscribe _ _ => inferInstanceAs (Decidable (s.Owns _ _))
  | .unsubscribeAt _ _ _ => inferInstanceAs (Decidable (s.Owns _ _))

/-! ## What the tables say -/

/-- The tables say what is wanted. -/
structure Agrees (s : Replayed) : Prop where
  keyed : ∀ entry ∈ s.client.instrumentKeys.entries, entry.2.key = entry.1
  distinct : ∀ entry ∈ s.client.instrumentKeys.entries,
    ∀ entry' ∈ s.client.instrumentKeys.entries, entry.2.ids = entry'.2.ids → entry.1 = entry'.1
  subscribed : ∀ ids, s.wanted.source ids ≠ none ↔
    ∃ entry ∈ s.client.instrumentKeys.entries, entry.2.ids = ids
  source : ∀ entry ∈ s.client.instrumentKeys.entries,
    s.client.sourceAt entry.1 entry.2.exchangeId = s.wanted.sourceOf entry.2.ids

section Agrees

variable {s : Replayed} {c' : BrokerClient} {w' : Wanted} {k : UInt32} {ids : String × String}
  {key : InstrumentKey} {md : UInt32} {exchangeId instrumentId : String}

/-- Tables that say what is wanted make the client tell the sources of it. -/
theorem Agrees.renews (h : s.Agrees) : s.Renews := by
  have hmem (md : UInt32) (key : InstrumentKey) : key ∈ s.client.renewed md ↔
      ∃ entry ∈ s.client.instrumentKeys.entries,
        entry.2 = key ∧ s.wanted.sourceOf key.ids = some md := by
    rw [BrokerClient.renewed, List.mem_filter, List.mem_map, decide_eq_true_eq]
    constructor
    · rintro ⟨⟨entry, hentry, rfl⟩, hsource⟩
      rw [BrokerClient.sourceLocation_eq, h.keyed entry hentry, h.source entry hentry] at hsource
      exact ⟨entry, hentry, rfl, hsource⟩
    · rintro ⟨entry, hentry, rfl, hsource⟩
      refine ⟨⟨entry, hentry, rfl⟩, ?_⟩
      rw [BrokerClient.sourceLocation_eq, h.keyed entry hentry, h.source entry hentry, hsource]
  intro md
  constructor
  · have hnodup : (s.client.instrumentKeys.entries.map fun entry => entry.2.ids).Nodup := by
      refine List.Nodup.map_on (fun entry hentry entry' hentry' heq => ?_)
        s.client.instrumentKeys.nodupKeys.nodup
      exact s.client.instrumentKeys.nodupKeys.eq_of_fst_eq hentry hentry'
        (h.distinct entry hentry entry' hentry' heq)
    have hsublist : ((s.client.renewed md).map InstrumentKey.ids).Sublist
        ((s.client.instrumentKeys.entries.map Sigma.snd).map InstrumentKey.ids) :=
      List.Sublist.map _ List.filter_sublist
    rw [List.map_map] at hsublist
    exact hnodup.sublist hsublist
  · intro ids
    rw [List.mem_map]
    constructor
    · rintro ⟨key, hkey, rfl⟩
      obtain ⟨-, -, -, hsource⟩ := (hmem md key).mp hkey
      exact hsource
    · intro hsource
      have hwanted : s.wanted.source ids ≠ none := by
        intro hnone
        rw [Wanted.sourceOf, hnone] at hsource
        cases hsource
      obtain ⟨entry, hentry, rfl⟩ := (h.subscribed ids).mp hwanted
      exact ⟨entry.2, (hmem md entry.2).mpr ⟨entry, hentry, rfl, hsource⟩, rfl⟩

/-- An instrument is subscribed to, and the sources of the others stay what is wanted. -/
theorem Agrees.subscribe {source : Option UInt32} (h : s.Agrees) (hown : s.Owns k ids)
    (hkey : key.key = k) (hids : key.ids = ids)
    (hkeys : c'.instrumentKeys = Table.tryEmplace k key s.client.instrumentKeys)
    (hwanted : w'.source = Function.update s.wanted.source ids (some source))
    (hsource : c'.sourceAt k ids.1 = w'.sourceOf ids)
    (hothers : ∀ entry ∈ s.client.instrumentKeys.entries, entry.2.ids ≠ ids →
      c'.sourceAt entry.1 entry.2.exchangeId = w'.sourceOf entry.2.ids) : Agrees ⟨c', w'⟩ := by
  have hmem (entry : Sigma fun _ : UInt32 => InstrumentKey) : entry ∈ c'.instrumentKeys.entries ↔
      entry ∈ s.client.instrumentKeys.entries ∨
        k ∉ s.client.instrumentKeys ∧ entry = ⟨k, key⟩ := by
    rw [hkeys, Table.mem_entries_tryEmplace]
  have hown' : ∀ entry ∈ c'.instrumentKeys.entries, entry.1 = k ↔ entry.2.ids = ids := by
    intro entry hentry
    rcases (hmem entry).mp hentry with hold | ⟨-, rfl⟩
    · exact hown entry hold
    · exact iff_of_true rfl hids
  have hold : ∀ entry ∈ c'.instrumentKeys.entries, entry.2.ids ≠ ids →
      entry ∈ s.client.instrumentKeys.entries := by
    intro entry hentry hne
    rcases (hmem entry).mp hentry with hold | ⟨-, rfl⟩
    · exact hold
    · exact absurd hids hne
  constructor
  · intro entry hentry
    rcases (hmem entry).mp hentry with hold | ⟨-, rfl⟩
    · exact h.keyed entry hold
    · exact hkey
  · intro entry hentry entry' hentry' heq
    by_cases hthis : entry.2.ids = ids
    · rw [(hown' entry hentry).mpr hthis, (hown' entry' hentry').mpr (heq.symm.trans hthis)]
    · exact h.distinct entry (hold entry hentry hthis) entry'
        (hold entry' hentry' fun hthis' => hthis (heq.trans hthis')) heq
  · intro ids'
    dsimp only
    rw [hwanted, Function.update_apply]
    split
    · rename_i hthis
      subst hthis
      refine iff_of_true (by simp) ?_
      by_cases hk : k ∈ s.client.instrumentKeys
      · obtain ⟨known, hknown⟩ := Table.exists_of_mem hk
        exact ⟨⟨k, known⟩, (hmem _).mpr (.inl hknown), (hown _ hknown).mp rfl⟩
      · exact ⟨⟨k, key⟩, (hmem _).mpr (.inr ⟨hk, rfl⟩), hids⟩
    · rename_i hother
      rw [h.subscribed]
      constructor
      · rintro ⟨entry, hentry, heq⟩
        exact ⟨entry, (hmem entry).mpr (.inl hentry), heq⟩
      · rintro ⟨entry, hentry, rfl⟩
        exact ⟨entry, hold entry hentry hother, rfl⟩
  · intro entry hentry
    by_cases hthis : entry.2.ids = ids
    · have hexchange : entry.2.exchangeId = ids.1 := congrArg Prod.fst hthis
      dsimp only
      rw [(hown' entry hentry).mpr hthis, hexchange, hthis, hsource]
    · exact hothers entry (hold entry hentry hthis) hthis

/-- An instrument is not subscribed to any more. -/
theorem Agrees.unsubscribe (h : s.Agrees) (hown : s.Owns k ids)
    (hkeys : c'.instrumentKeys = s.client.instrumentKeys.erase k)
    (hothers : ∀ k' ≠ k, ∀ exchangeId, c'.sourceAt k' exchangeId = s.client.sourceAt k' exchangeId) :
    Agrees ⟨c', { s.wanted with source := Function.update s.wanted.source ids none }⟩ := by
  have hmem (entry : Sigma fun _ : UInt32 => InstrumentKey) : entry ∈ c'.instrumentKeys.entries ↔
      entry ∈ s.client.instrumentKeys.entries ∧ entry.2.ids ≠ ids := by
    rw [hkeys, ← AList.mem_lookup_iff, Option.mem_def, Table.lookup_erase_apply]
    constructor
    · intro hentry
      split at hentry
      · cases hentry
      · rename_i hne
        have hbefore := AList.mem_lookup_iff.mp hentry
        exact ⟨hbefore, fun hthis => hne ((hown entry hbefore).mpr hthis)⟩
    · rintro ⟨hentry, hne⟩
      rw [if_neg fun hthis => hne ((hown entry hentry).mp hthis)]
      exact AList.mem_lookup_iff.mpr hentry
  constructor
  · intro entry hentry
    exact h.keyed entry ((hmem entry).mp hentry).1
  · intro entry hentry entry' hentry' heq
    exact h.distinct entry ((hmem entry).mp hentry).1 entry' ((hmem entry').mp hentry').1 heq
  · intro ids'
    dsimp only
    rw [Function.update_apply]
    split
    · rename_i hthis
      subst hthis
      refine iff_of_false (by simp) ?_
      rintro ⟨entry, hentry, heq⟩
      exact ((hmem entry).mp hentry).2 heq
    · rename_i hother
      rw [h.subscribed]
      constructor
      · rintro ⟨entry, hentry, rfl⟩
        exact ⟨entry, (hmem entry).mpr ⟨hentry, hother⟩, rfl⟩
      · rintro ⟨entry, hentry, heq⟩
        exact ⟨entry, ((hmem entry).mp hentry).1, heq⟩
  · intro entry hentry
    obtain ⟨hbefore, hne⟩ := (hmem entry).mp hentry
    have hk : entry.1 ≠ k := fun hthis => hne ((hown entry hbefore).mp hthis)
    dsimp only
    rw [hothers entry.1 hk, h.source entry hbefore, Wanted.sourceOf, Wanted.sourceOf]
    dsimp only
    rw [Function.update_of_ne hne]

theorem exists_of_subscribeIds {c : BrokerClient} (hfit : IdsFit exchangeId instrumentId)
    (h : c.subscribeIds exchangeId instrumentId = .ok c') :
    ∃ key, key.key = keyOf exchangeId instrumentId ∧ key.ids = (exchangeId, instrumentId) ∧
      c' = c.subscribeKey key := by
  unfold BrokerClient.subscribeIds at h
  split at h
  · rename_i hmem
    cases h
    refine ⟨⟨keyOf exchangeId instrumentId, instrumentId, exchangeId, .Unknown⟩, rfl, rfl, ?_⟩
    rw [BrokerClient.subscribeKey, Table.tryEmplace_of_mem hmem]
  · obtain ⟨key, hkey, hret⟩ := Outcome.exists_of_bind h
    cases hret
    obtain ⟨hhash, hexchange, hinstrument⟩ := ApiService.ids_eq hfit hkey
    refine ⟨key, ?_, ?_, rfl⟩
    · rw [hhash, keyOf, hfit.cStr_eq.1, hfit.cStr_eq.2]
    · rw [InstrumentKey.ids, hexchange, hinstrument]

/-- An instrument is subscribed to without a source. -/
theorem Agrees.subscribeKey (h : s.Agrees) (hown : s.Owns key.key key.ids)
    (hsource : s.client.sourceAt key.key key.exchangeId = s.wanted.bound key.exchangeId) :
    Agrees ⟨s.client.subscribeKey key,
      { s.wanted with source := Function.update s.wanted.source key.ids (some none) }⟩ := by
  refine h.subscribe hown rfl rfl rfl rfl ?_ fun entry hentry hother => ?_
  · rw [Wanted.sourceOf_of_unnamed (Function.update_self ..)]
    exact hsource
  · refine (h.source entry hentry).trans ?_
    rw [Wanted.sourceOf, Wanted.sourceOf]
    dsimp only
    rw [Function.update_of_ne hother]

/-- An instrument is subscribed to at a source, to which others of its exchange that rely on one
go, too. -/
theorem Agrees.subscribeAt (h : s.Agrees) (hown : s.Owns key.key key.ids)
    (hsource : s.client.instrumentMdLocations.lookup key.key ∈ [none, some md])
    (hrelies : s.Relies md key.ids) :
    Agrees ⟨{ s.client.subscribeKey key with
        exchangeMdLocations := Table.tryEmplace key.exchangeId md s.client.exchangeMdLocations
        instrumentMdLocations := Table.tryEmplace key.key md s.client.instrumentMdLocations },
      { source := Function.update s.wanted.source key.ids (some (some md))
        bound := Function.update s.wanted.bound key.exchangeId (some md) }⟩ := by
  refine h.subscribe hown rfl rfl rfl rfl ?_ fun entry hentry hother => ?_
  · rw [BrokerClient.sourceAt_subscribeAt (c := s.client) rfl rfl, if_pos rfl,
      Wanted.sourceOf_of_named (Function.update_self ..)]
    simp only [List.mem_cons, List.not_mem_nil, or_false] at hsource
    rcases hsource with hlookup | hlookup <;> rw [hlookup] <;> rfl
  · have hk : entry.1 ≠ key.key := fun hthis => hother ((hown entry hentry).mp hthis)
    have hsame : Function.update s.wanted.source key.ids (some (some md)) entry.2.ids =
        s.wanted.source entry.2.ids := Function.update_of_ne hother ..
    rw [BrokerClient.sourceAt_subscribeAt (c := s.client) rfl rfl, if_neg hk,
      h.source entry hentry]
    obtain ⟨named, hnamed⟩ := Option.ne_none_iff_exists'.mp
      ((h.subscribed entry.2.ids).mpr ⟨entry, hentry, rfl⟩)
    cases named with
    | none =>
        rw [Wanted.sourceOf_of_unnamed hnamed, Wanted.sourceOf_of_unnamed (hsame.trans hnamed)]
        dsimp only
        rw [Function.update_apply]
        by_cases hexchange : entry.2.exchangeId = key.exchangeId
        · have hbound := hrelies entry hentry hexchange hother hnamed
          simp only [List.mem_cons, List.not_mem_nil, or_false] at hbound
          have hfst : entry.2.ids.1 = key.exchangeId := hexchange
          rw [if_pos hexchange, if_pos hfst, hfst]
          rcases hbound with hbound | hbound
          · rw [show s.wanted.bound key.exchangeId = none from hbound, Option.getD_none]
          · rw [show s.wanted.bound key.exchangeId = some md from hbound, Option.getD_some]
        · rw [if_neg hexchange, if_neg (show ¬ entry.2.ids.1 = key.exchangeId from hexchange)]
    | some m =>
        rw [Wanted.sourceOf_of_named hnamed, Wanted.sourceOf_of_named (hsame.trans hnamed)]
        split <;> rfl

/-- A call of this kind leaves tables that say what is wanted. -/
theorem Agrees.step (h : s.Agrees) {call : ReplayCall} (hplain : s.Plain call) :
    (s.step call).Agrees := by
  unfold Replayed.step
  cases hcall : s.client.handle call with
  | error fault => exact h
  | ok client =>
      cases call with
      | subscribeKey key =>
          cases hcall
          exact h.subscribeKey hplain.1 hplain.2
      | subscribe exchangeId instrumentId =>
          obtain ⟨hfit, hown, hsource⟩ := hplain
          obtain ⟨key, hkey, hids, rfl⟩ := exists_of_subscribeIds hfit hcall
          rw [← hkey, ← hids] at hown
          have hexchange : key.exchangeId = exchangeId := congrArg Prod.fst hids
          rw [← hkey, ← hexchange] at hsource
          dsimp only [Wanted.after]
          rw [hfit.cStr_eq.1, hfit.cStr_eq.2, ← hids]
          exact h.subscribeKey hown hsource
      | subscribeAt md exchangeId instrumentId =>
          obtain ⟨hfit, hown, hsource, hrelies⟩ := hplain
          obtain ⟨c', hsubscribe, hret⟩ := Outcome.exists_of_bind hcall
          obtain ⟨key, hkey, hids, rfl⟩ := exists_of_subscribeIds hfit hsubscribe
          cases hret
          rw [← hkey, ← hids] at hown
          rw [← hkey] at hsource
          rw [← hids] at hrelies
          have hexchange : key.exchangeId = exchangeId := congrArg Prod.fst hids
          dsimp only [Wanted.after]
          rw [hfit.cStr_eq.1, hfit.cStr_eq.2, ← hids, ← hkey, ← hexchange]
          exact h.subscribeAt hown hsource hrelies
      | unsubscribe exchangeId instrumentId =>
          cases hcall
          exact h.unsubscribe hplain rfl fun _ _ _ => rfl
      | unsubscribeAt md exchangeId instrumentId =>
          cases hcall
          refine h.unsubscribe hplain rfl fun k' hk' exchangeId' => ?_
          rw [BrokerClient.sourceAt, BrokerClient.unsubscribeAt, Table.lookup_erase_apply,
            if_neg hk']
          rfl

theorem agrees_start : start.Agrees where
  keyed := fun entry hentry => (by cases hentry)
  distinct := fun entry hentry => (by cases hentry)
  subscribed := fun ids => iff_of_false (fun h => h rfl) fun ⟨entry, hentry, _⟩ => (by cases hentry)
  source := fun entry hentry => (by cases hentry)

end Agrees

/-- After calls of this kind every source is told of its instruments, of each one once and of no
others. -/
theorem renews_of_run (calls : List ReplayCall) (h : Along step Plain start calls) :
    (calls.foldl step start).Renews :=
  (h.foldl (P := Agrees) (fun _ _ hagrees hplain => hagrees.step hplain) agrees_start).renews

/-- One of three instruments goes to another source. -/
theorem renews_of_run_example : (([.subscribeAt 5 "SHFE" "rb2505", .subscribe "SHFE" "au2506",
    .subscribeAt 6 "DCE" "i2505", .unsubscribeAt 6 "DCE" "i2505",
    .subscribeAt 5 "DCE" "i2505"] : List ReplayCall).foldl step start).Renews :=
  renews_of_run _ (by decide +kernel)

/-- An instrument is unsubscribed and subscribed to at another source. -/
theorem not_renews_of_unsubscribe : ¬ (([.subscribeAt 5 "SHFE" "rb2505",
    .unsubscribe "SHFE" "rb2505", .subscribeAt 6 "SHFE" "rb2505"] : List ReplayCall).foldl step
      start).Renews := by
  intro h
  have hmem := ((h 6).2 ("SHFE", "rb2505")).mpr (by decide +kernel)
  revert hmem
  decide +kernel

end Replayed

end Kungfu.Api
