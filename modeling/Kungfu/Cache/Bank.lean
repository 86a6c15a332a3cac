import Kungfu.Longfist.StateTypes
import Mathlib.Data.List.AList
import Mathlib.Data.List.Induction

/-!
# State banks

A bank files the states it is fed by type and by the uid of their data.  A state that meets
another one under its uid is assigned to it.  Neither the channel of a state nor its primary
key is compared, and assignment keeps what is left of longer texts, so a bank holds the
latest state of every channel and primary key just when no uid is shared and no text gets
shorter.
-/

namespace Kungfu.Cache

open Longfist

variable {δ : Type} {t : StateDataType}

/-- `state`: a datum with the channel it was written to and the time of its frame. -/
structure State (δ : Type) (t : StateDataType) where
  source : UInt32
  dest : UInt32
  updateTime : Int64
  data : Data δ t

namespace State

/-- What makes states different ones: their channel and their primary key. -/
def identity (s : State δ t) : UInt32 × UInt32 × PrimaryKey t := (s.source, s.dest, s.data.key)

def uid (s : State δ t) : UInt64 := s.data.uid

/-- `state::operator=`. -/
def assign (old new : State δ t) : State δ t := { new with data := old.data.assign new.data }

/-- The assignment of a state to what is filed under its uid, if anything is. -/
def assignTo (old : Option (State δ t)) (new : State δ t) : State δ t :=
  match old with
  | none => new
  | some old => old.assign new

theorem uid_eq_of_identity {s s' : State δ t} (h : s.identity = s'.identity) : s.uid = s'.uid :=
  Data.uid_eq_of_key (congrArg (·.2.2) h)

theorem key_eq_of_identity {s s' : State δ t} (h : s.identity = s'.identity) :
    s.data.key = s'.data.key :=
  congrArg (·.2.2) h

/-- A state is assigned to one with the same primary key as it is if no text gets shorter. -/
theorem assign_eq_right {old new : State δ t} (h : old.data.key = new.data.key) :
    old.assign new = new ↔ ∀ i, (old.data.texts i).length ≤ (new.data.texts i).length := by
  rw [← Data.assign_eq_right h]
  obtain ⟨source, dest, updateTime, data⟩ := new
  simp [assign]

end State

/-! ## Banks -/

/-- The states of a type, by uid. -/
abbrev StateMap (δ : Type) (t : StateDataType) := AList fun _ : UInt64 => State δ t

/-- `insert_or_assign` under the uid of the state's data. -/
def StateMap.insertOrAssign (states : StateMap δ t) (s : State δ t) : StateMap δ t :=
  states.insert s.uid (.assignTo (states.lookup s.uid) s)

abbrev Bank (δ : Type) := (t : StateDataType) → StateMap δ t

def Bank.empty : Bank δ := fun _ => ∅

/-- `bank::operator<<`. -/
def Bank.feed (bank : Bank δ) (s : State δ t) : Bank δ :=
  Function.update bank t ((bank t).insertOrAssign s)

/-- A state of any type. -/
abbrev AnyState (δ : Type) := Σ t, State δ t

def Bank.feedAll (feeds : List (AnyState δ)) : Bank δ :=
  feeds.foldl (fun bank s => bank.feed s.2) Bank.empty

/-- The state, if it is of type `t`. -/
def AnyState.ofType (t : StateDataType) (s : AnyState δ) : Option (State δ t) :=
  if h : s.1 = t then some (h ▸ s.2) else none

/-- The states of type `t` among those that were fed. -/
def feedsOf (t : StateDataType) (feeds : List (AnyState δ)) : List (State δ t) :=
  feeds.filterMap (AnyState.ofType t)

/-- Each type has a map of its own. -/
theorem feedAll_apply (feeds : List (AnyState δ)) (t : StateDataType) :
    Bank.feedAll feeds t = (feedsOf t feeds).foldl StateMap.insertOrAssign ∅ := by
  induction feeds using List.reverseRecOn with
  | nil => rfl
  | append_singleton feeds s ih =>
    obtain ⟨t', s⟩ := s
    rw [Bank.feedAll, List.foldl_append, List.foldl_cons, List.foldl_nil, ← Bank.feedAll, feedsOf,
      List.filterMap_append, List.foldl_append, ← feedsOf, ← ih]
    rcases eq_or_ne t' t with rfl | hne
    · simp [Bank.feed, AnyState.ofType]
    · simp [Bank.feed, AnyState.ofType, hne, Function.update_of_ne hne.symm]

/-! ## What a bank holds -/

/-- The assignment of states one after another. -/
def assignAll (states : List (State δ t)) : Option (State δ t) :=
  states.foldl (fun old s => some (.assignTo old s)) none

theorem assignAll_append_singleton (states : List (State δ t)) (s : State δ t) :
    assignAll (states ++ [s]) = some (.assignTo (assignAll states) s) := by
  rw [assignAll, List.foldl_append]
  rfl

/-- Under a uid a bank holds the states of that uid, assigned one after another. -/
theorem lookup_foldl_insertOrAssign (states : List (State δ t)) (uid : UInt64) :
    (states.foldl StateMap.insertOrAssign ∅).lookup uid =
      assignAll (states.filter fun s => s.uid = uid) := by
  induction states using List.reverseRecOn with
  | nil => rfl
  | append_singleton states s ih =>
    rw [List.foldl_append, List.foldl_cons, List.foldl_nil, StateMap.insertOrAssign,
      List.filter_append]
    rcases eq_or_ne s.uid uid with rfl | hne
    · simp [assignAll_append_singleton, ih]
    · simp [hne, AList.lookup_insert_ne hne.symm, ih]

/-- What every state and every assignment has, the result of assigning has. -/
theorem assignAll_induction {P : State δ t → Prop} {states : List (State δ t)}
    (hstates : ∀ s ∈ states, P s) (hassign : ∀ old new, P old → P new → P (old.assign new)) :
    ∀ s, assignAll states = some s → P s := by
  induction states using List.reverseRecOn with
  | nil => intro s hs; cases hs
  | append_singleton states new ih =>
    intro s hs
    rw [assignAll_append_singleton] at hs
    obtain rfl := Option.some.inj hs
    have hnew : P new := hstates new (by simp)
    cases hold : assignAll states with
    | none => exact hnew
    | some old =>
      have hold : P old := ih (fun s hs => hstates s (List.mem_append_left _ hs)) old hold
      exact hassign old new hold hnew

/-- Assigning keeps the longest text. -/
theorem length_le_of_assignAll {states : List (State δ t)} {s s' : State δ t} (hs' : s' ∈ states)
    (h : assignAll states = some s) (i : Fin t.texts.length) :
    (s'.data.texts i).length ≤ (s.data.texts i).length := by
  induction states using List.reverseRecOn generalizing s with
  | nil => cases hs'
  | append_singleton states new ih =>
    rw [assignAll_append_singleton] at h
    obtain rfl := Option.some.inj h
    cases hold : assignAll states with
    | none =>
      rcases List.mem_append.mp hs' with hs' | hs'
      · obtain ⟨before, s'', rfl⟩ := List.eq_nil_or_concat states |>.resolve_left
          (List.ne_nil_of_mem hs')
        rw [List.concat_eq_append, assignAll_append_singleton] at hold
        cases hold
      · rw [List.mem_singleton.mp hs']
        rfl
    | some old =>
      rw [State.assignTo, State.assign, Data.texts_assign, length_assignText]
      rcases List.mem_append.mp hs' with hs' | hs'
      · exact (ih hs' hold).trans (le_max_left _ _)
      · rw [List.mem_singleton.mp hs']
        exact le_max_right _ _

/-! ## The latest states -/

/-- The last state of its identity. -/
def Latest (states : List (State δ t)) (s : State δ t) : Prop :=
  ∃ before after, states = before ++ s :: after ∧ ∀ s' ∈ after, s'.identity ≠ s.identity

theorem Latest.mem {states : List (State δ t)} {s : State δ t} (h : Latest states s) :
    s ∈ states := by
  obtain ⟨before, after, rfl, -⟩ := h
  simp

/-- Every state that is fed has a latest one of its identity. -/
theorem exists_latest {states : List (State δ t)} {s : State δ t} (h : s ∈ states) :
    ∃ s', Latest states s' ∧ s'.identity = s.identity := by
  induction states using List.reverseRecOn with
  | nil => cases h
  | append_singleton states new ih =>
    by_cases hnew : new.identity = s.identity
    · exact ⟨new, ⟨states, [], rfl, nofun⟩, hnew⟩
    · have hs : s ∈ states := by
        rcases List.mem_append.mp h with h | h
        · exact h
        · rw [List.mem_singleton.mp h] at hnew
          exact absurd rfl hnew
      obtain ⟨s', ⟨before, after, hsplit, hafter⟩, hidentity⟩ := ih hs
      refine ⟨s', ⟨before, after ++ [new], by rw [hsplit]; simp, ?_⟩, hidentity⟩
      intro s'' hs''
      rcases List.mem_append.mp hs'' with hs'' | hs''
      · exact hafter s'' hs''
      · rw [List.mem_singleton.mp hs'', hidentity]
        exact hnew

/-- No two of the states share a uid unless they have the same identity. -/
def Separate (states : List (State δ t)) : Prop :=
  ∀ s ∈ states, ∀ s' ∈ states, s.uid = s'.uid → s.identity = s'.identity

/-- The latest state of an identity has no shorter text than any before it. -/
def Widening (states : List (State δ t)) : Prop :=
  ∀ s, Latest states s → ∀ s' ∈ states, s'.identity = s.identity →
    ∀ i, (s'.data.texts i).length ≤ (s.data.texts i).length

/-- The states before the latest one of an identity leave it as it is when they have its key
and no longer texts. -/
theorem lookup_of_separate {states : List (State δ t)} (hseparate : Separate states)
    (hwidening : Widening states) {s : State δ t} (h : Latest states s) :
    (states.foldl StateMap.insertOrAssign ∅).lookup s.uid = some s := by
  have hlonger := hwidening s h
  have hs := h.mem
  obtain ⟨before, after, rfl, hafter⟩ := h
  have hnone : (after.filter fun s' => s'.uid = s.uid) = [] := by
    apply List.filter_eq_nil_iff.mpr
    intro s' hs' huid
    exact hafter s' hs' (hseparate s' (by simp [hs']) s hs (of_decide_eq_true huid))
  rw [lookup_foldl_insertOrAssign, List.filter_append, List.filter_cons_of_pos (by simp), hnone,
    assignAll_append_singleton]
  cases hold : assignAll (before.filter fun s' => s'.uid = s.uid) with
  | none => rfl
  | some old =>
    have hsame : ∀ s' ∈ before.filter fun s' => s'.uid = s.uid, s'.identity = s.identity := by
      intro s' hs'
      obtain ⟨hs', huid⟩ := List.mem_filter.mp hs'
      exact hseparate s' (by simp [hs']) s hs (of_decide_eq_true huid)
    -- what was assigned so far has the key of `s` and no longer texts
    have hP := assignAll_induction
      (P := fun old => old.data.key = s.data.key ∧
        ∀ i, (old.data.texts i).length ≤ (s.data.texts i).length)
      (fun s' hs' => ⟨State.key_eq_of_identity (hsame s' hs'),
        hlonger s' (by simp [(List.mem_filter.mp hs').1]) (hsame s' hs')⟩)
      (fun old new hold hnew => ⟨(Data.key_assign (hold.1.trans hnew.1.symm)).trans hnew.1, by
        intro i
        rw [State.assign, Data.texts_assign, length_assignText]
        exact max_le (hold.2 i) (hnew.2 i)⟩)
      old hold
    exact congrArg some ((State.assign_eq_right hP.1).mpr hP.2)

/-- States of one uid that a bank holds the latest ones of have one identity. -/
theorem separate_of_lookup {states : List (State δ t)}
    (h : ∀ s, Latest states s → (states.foldl StateMap.insertOrAssign ∅).lookup s.uid = some s) :
    Separate states := by
  intro s hs s' hs' huid
  obtain ⟨a, ha, haidentity⟩ := exists_latest hs
  obtain ⟨b, hb, hbidentity⟩ := exists_latest hs'
  have hsame : a.uid = b.uid := by
    rw [State.uid_eq_of_identity haidentity, huid, State.uid_eq_of_identity hbidentity]
  have hab : a = b := Option.some.inj ((h a ha).symm.trans (hsame ▸ h b hb))
  rw [← haidentity, hab, hbidentity]

theorem widening_of_lookup {states : List (State δ t)}
    (h : ∀ s, Latest states s → (states.foldl StateMap.insertOrAssign ∅).lookup s.uid = some s) :
    Widening states := by
  intro s hs s' hs' hidentity i
  have hlookup := h s hs
  rw [lookup_foldl_insertOrAssign] at hlookup
  apply length_le_of_assignAll _ hlookup
  exact List.mem_filter.mpr ⟨hs', decide_eq_true (State.uid_eq_of_identity hidentity)⟩

/-- For every type, a bank holds the latest state of every channel and primary key that was
fed if and only if no two of them share a uid and no text of theirs got shorter. -/
theorem bank_holds_latest_iff (feeds : List (AnyState δ)) (t : StateDataType) :
    (∀ s, Latest (feedsOf t feeds) s → (Bank.feedAll feeds t).lookup s.uid = some s) ↔
      Separate (feedsOf t feeds) ∧ Widening (feedsOf t feeds) := by
  rw [feedAll_apply]
  constructor
  · intro h
    exact ⟨separate_of_lookup h, widening_of_lookup h⟩
  · intro h s hs
    exact lookup_of_separate h.1 h.2 hs

/-! ## An order in two channels -/

/-- The order 5 of the account 10, in the channel to `dest`. -/
def exampleOrder (dest : UInt32) : State Unit .Order :=
  ⟨10, dest, 1, ⟨((5 : UInt64), ()), fun _ => [], 1, ()⟩⟩

/-- The account writes an order to the strategy 77 and to PUBLIC; the bank forgets the
strategy's. -/
theorem order_in_two_channels :
    let feeds : List (AnyState Unit) := [⟨.Order, exampleOrder 77⟩, ⟨.Order, exampleOrder PUBLIC⟩]
    Latest (feedsOf .Order feeds) (exampleOrder 77) ∧
      (Bank.feedAll feeds .Order).lookup (exampleOrder 77).uid = some (exampleOrder PUBLIC) ∧
      exampleOrder PUBLIC ≠ exampleOrder 77 := by
  refine ⟨⟨[], [exampleOrder PUBLIC], rfl, ?_⟩, rfl, ?_⟩
  · intro s' hs'
    rw [List.mem_singleton.mp hs']
    decide
  · intro h
    exact absurd (congrArg State.dest h) (by decide)

end Kungfu.Cache
