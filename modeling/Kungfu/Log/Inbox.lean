import Mathlib.Data.List.Basic
import Mathlib.Logic.Function.Basic

/-!
# Readers of one log

What is posted to many channels stands in one log, in the order of its times.  A reader has a
position in each channel that it joined, and reads what stands first in the log of all that is
unread.  So it reads a post only after everything that was posted before it to the channels that it
has joined.

What somebody has posted and is still to post is one list: posting does not change it.
-/

/-- What is posted to a channel at a time. -/
structure Post (κ τ μ : Type*) where
  key : κ
  time : τ
  message : μ

/-- A post without its time. -/
def Post.item {κ τ μ : Type*} (p : Post κ τ μ) : κ × μ := (p.key, p.message)

/-- The position of a reader in each channel that it has joined. -/
abbrev Inbox (κ : Type*) := κ → Option ℕ

namespace Log

variable {κ τ μ : Type*} (log : List (Post κ τ μ))

/-- The posts between two positions. -/
def segment (a b : ℕ) : List (Post κ τ μ) := (log.drop a).take (b - a)

variable {log} {a b i : ℕ} {p q : Post κ τ μ}

theorem mem_segment : p ∈ segment log a b ↔ ∃ j, a ≤ j ∧ j < b ∧ log[j]? = some p := by
  rw [segment, List.mem_iff_getElem?]
  constructor
  · rintro ⟨j, hj⟩
    rw [List.getElem?_take, List.getElem?_drop] at hj
    split at hj
    · exact ⟨a + j, by omega, by omega, hj⟩
    · simp at hj
  · rintro ⟨j, haj, hjb, hj⟩
    refine ⟨j - a, ?_⟩
    rw [List.getElem?_take, List.getElem?_drop, Nat.add_sub_cancel' haj, if_pos (by omega), hj]

theorem mem_drop : p ∈ log.drop a ↔ ∃ j, a ≤ j ∧ log[j]? = some p := by
  rw [List.mem_iff_getElem?]
  constructor
  · rintro ⟨j, hj⟩
    exact ⟨a + j, by omega, by simpa using hj⟩
  · rintro ⟨j, haj, hj⟩
    exact ⟨j - a, by simpa [Nat.add_sub_cancel' haj] using hj⟩

/-- What stands in a log to which a post is added. -/
theorem getElem?_post (h : (log ++ [q])[i]? = some p) :
    log[i]? = some p ∨ (i = log.length ∧ p = q) := by
  by_cases hlt : i < log.length
  · rw [List.getElem?_append_left hlt] at h
    exact .inl h
  · obtain ⟨hlength, hp⟩ := List.getElem?_eq_some_iff.mp h
    have hi : i = log.length := by
      rw [List.length_append, List.length_singleton] at hlength
      omega
    subst hi
    exact .inr ⟨rfl, by simpa using hp.symm⟩

/-- The posts from a position on, around one of them. -/
theorem drop_eq_segment (hai : a ≤ i) (hp : log[i]? = some p) :
    log.drop a = segment log a i ++ p :: log.drop (i + 1) := by
  obtain ⟨hlt, rfl⟩ := List.getElem?_eq_some_iff.mp hp
  have hrest : log.drop i = (log.drop a).drop (i - a) := by
    rw [List.drop_drop, Nat.add_sub_cancel' hai]
  rw [segment, ← List.drop_eq_getElem_cons hlt, hrest, List.take_append_drop]

/-! ## What is sent -/

section Sent

variable (P : κ × μ → Prop) [DecidablePred P] {outbox : List (κ × μ)}

/-- What has been posted of a kind, and what is to be posted. -/
def sent (log : List (Post κ τ μ)) (outbox : List (κ × μ)) : List (κ × μ) :=
  (log.map Post.item).filter P ++ outbox

variable {P} {x : κ × μ}

theorem sent_append (more : List (κ × μ)) :
    sent P log (outbox ++ more) = sent P log outbox ++ more := by
  rw [sent, ← List.append_assoc, sent]

/-- Posting what was to be posted. -/
theorem sent_post (hx : P x) (t : τ) :
    sent P (log ++ [⟨x.1, t, x.2⟩]) outbox = sent P log (x :: outbox) := by
  simp [sent, Post.item, hx]

/-- A post of another kind. -/
theorem sent_post_of_not (hq : ¬ P q.item) : sent P (log ++ [q]) outbox = sent P log outbox := by
  simp [sent, hq]

theorem mem_sent_drop :
    x ∈ sent P (log.drop a) outbox ↔
      (∃ j p, a ≤ j ∧ log[j]? = some p ∧ p.item = x ∧ P x) ∨ x ∈ outbox := by
  rw [sent, List.mem_append, List.mem_filter, List.mem_map, decide_eq_true_iff]
  refine or_congr_left ?_
  constructor
  · rintro ⟨⟨p, hp, hx⟩, hP⟩
    obtain ⟨j, haj, hj⟩ := mem_drop.mp hp
    exact ⟨j, p, haj, hj, hx, hP⟩
  · rintro ⟨j, p, haj, hj, hx, hP⟩
    exact ⟨⟨p, mem_drop.mpr ⟨j, haj, hj⟩, hx⟩, hP⟩

theorem mem_sent_segment :
    x ∈ sent P (segment log a b) [] ↔
      ∃ j p, a ≤ j ∧ j < b ∧ log[j]? = some p ∧ p.item = x ∧ P x := by
  rw [sent, List.append_nil, List.mem_filter, List.mem_map, decide_eq_true_iff]
  constructor
  · rintro ⟨⟨p, hp, hx⟩, hP⟩
    obtain ⟨j, haj, hjb, hj⟩ := mem_segment.mp hp
    exact ⟨j, p, haj, hjb, hj, hx, hP⟩
  · rintro ⟨j, p, haj, hjb, hj, hx, hP⟩
    exact ⟨⟨p, mem_segment.mpr ⟨j, haj, hjb, hj⟩, hx⟩, hP⟩

/-- What is sent before and after a post. -/
theorem sent_drop (hai : a ≤ i) (hp : log[i]? = some p) (hP : P p.item) :
    sent P (log.drop a) outbox =
      sent P (segment log a i) [] ++ p.item :: sent P (log.drop (i + 1)) outbox := by
  simp [sent, drop_eq_segment hai hp, hP]

/-- What is read off the items of a kind. -/
theorem filterMap_sent {β : Type*} {f : κ × μ → Option β} (hf : ∀ x, (f x).isSome → P x) :
    (sent P log outbox).filterMap f = (log.map Post.item).filterMap f ++ outbox.filterMap f := by
  rw [sent, List.filterMap_append, List.filterMap_filter]
  congr 1
  refine List.filterMap_congr fun x _ => ?_
  cases hx : f x with
  | none => simp
  | some b => simp [hf x (by simp [hx])]

end Sent

/-! ## What stands before -/

section Preceded

variable {α : Type*} {after : α → Prop} {Q Q' : List α → Prop} {l l' : List α} {x : α}

/-- Elements of one kind stand only behind lists that meet a condition. -/
def Preceded (after : α → Prop) : (List α → Prop) → List α → Prop
  | _, [] => True
  | Q, x :: l => (after x → Q []) ∧ Preceded after (fun before => Q (x :: before)) l

@[simp] theorem preceded_nil : Preceded after Q [] := trivial

@[simp] theorem preceded_cons :
    Preceded after Q (x :: l) ↔
      (after x → Q []) ∧ Preceded after (fun before => Q (x :: before)) l :=
  Iff.rfl

theorem preceded_append :
    Preceded after Q (l ++ l') ↔
      Preceded after Q l ∧ Preceded after (fun before => Q (l ++ before)) l' := by
  induction l generalizing Q with
  | nil => simp
  | cons x l ih => simp [ih, and_assoc]

theorem Preceded.mono (h : Preceded after Q l) (hQ : ∀ before, Q before → Q' before) :
    Preceded after Q' l := by
  induction l generalizing Q Q' with
  | nil => trivial
  | cons x l ih => exact ⟨fun hx => hQ _ (h.1 hx), ih h.2 fun before => hQ (x :: before)⟩

theorem preceded_of_forall_not (h : ∀ x ∈ l, ¬ after x) : Preceded after Q l := by
  induction l generalizing Q with
  | nil => trivial
  | cons x l ih =>
      refine ⟨fun hx => absurd hx (h x List.mem_cons_self), ih fun y hy => ?_⟩
      exact h y (List.mem_cons_of_mem x hy)

theorem preceded_of_prefix (h : ∀ before, before <+: l → Q before) : Preceded after Q l := by
  induction l generalizing Q with
  | nil => trivial
  | cons x l ih =>
      refine ⟨fun _ => h [] List.nil_prefix, ih fun before hbefore => h (x :: before) ?_⟩
      exact List.cons_prefix_cons.mpr ⟨rfl, hbefore⟩

theorem Preceded.append (h : Preceded after Q l) (h' : ∀ x ∈ l', ¬ after x) :
    Preceded after Q (l ++ l') :=
  preceded_append.mpr ⟨h, preceded_of_forall_not h'⟩

theorem Preceded.of_prefix (h : Preceded after Q l) (hl : l' <+: l) : Preceded after Q l' := by
  obtain ⟨rest, rfl⟩ := hl
  exact (preceded_append.mp h).1

theorem Preceded.of_split {rest : List α} (h : Preceded after Q (l ++ x :: rest)) (hx : after x) : Q l := by
  simpa using (preceded_append.mp h).2.1 hx

/-- What was sent before a post. -/
theorem Preceded.of_posted {P : κ × μ → Prop} [DecidablePred P] {after : κ × μ → Prop}
    {Q : List (κ × μ) → Prop} {outbox : List (κ × μ)} (h : Preceded after Q (sent P (log.drop a) outbox))
    (hai : a ≤ i) (hp : log[i]? = some p) (hP : P p.item) (hafter : after p.item) :
    Q (sent P (segment log a i) []) := by
  rw [sent_drop hai hp hP] at h
  exact h.of_split hafter

theorem Preceded.of_mem_outbox {P : κ × μ → Prop} [DecidablePred P] {after : κ × μ → Prop}
    {Q : List (κ × μ) → Prop} {outbox : List (κ × μ)} {x : κ × μ} (h : Preceded after Q (sent P log outbox))
    (hx : x ∈ outbox) (hafter : after x) : ∃ before, Q (sent P log before) := by
  obtain ⟨before, rest, rfl⟩ := List.append_of_mem hx
  rw [sent_append] at h
  exact ⟨before, h.of_split hafter⟩

/-- What was sent before a post that stands before another one. -/
theorem Preceded.of_segment {P : κ × μ → Prop} [DecidablePred P] {after : κ × μ → Prop}
    {Q : List (κ × μ) → Prop} (h : Preceded after Q (sent P (segment log a b) [])) (hai : a ≤ i)
    (hib : i < b) (hp : log[i]? = some p) (hP : P p.item) (hafter : after p.item) :
    Q (sent P (segment log a i) []) := by
  have hsegment : segment (log.take b) a i = segment log a i := by
    rw [segment, segment, List.drop_take, List.take_take, Nat.min_eq_left (by omega)]
  have htake : segment log a b = (log.take b).drop a := by rw [segment, List.drop_take]
  rw [htake] at h
  rw [← hsegment]
  exact h.of_posted hai (by rw [List.getElem?_take, if_pos hib, hp]) hP hafter

end Preceded

/-! ## Channels -/

variable [DecidableEq κ] {k : κ}

/-- The posts of a channel between two positions. -/
def slice (log : List (Post κ τ μ)) (k : κ) (a b : ℕ) : List (Post κ τ μ) :=
  (segment log a b).filter (·.key = k)

theorem mem_slice : p ∈ slice log k a b ↔ p.key = k ∧ ∃ j, a ≤ j ∧ j < b ∧ log[j]? = some p := by
  rw [slice, List.mem_filter, decide_eq_true_iff, mem_segment, and_comm]

theorem slice_append (ha : a ≤ log.length) (hb : b ≤ log.length) :
    slice (log ++ [q]) k a b = slice log k a b := by
  rw [slice, segment, List.drop_append_of_le_length ha,
    List.take_append_of_le_length (by rw [List.length_drop]; omega), slice, segment]

theorem slice_trans {c : ℕ} (hab : a ≤ b) (hbc : b ≤ c) :
    slice log k a b ++ slice log k b c = slice log k a c := by
  have hrest : log.drop b = (log.drop a).drop (b - a) := by
    rw [List.drop_drop, Nat.add_sub_cancel' hab]
  have hlength : c - a = b - a + (c - b) := by omega
  rw [slice, slice, slice, ← List.filter_append, segment, segment, segment, hrest, hlength,
    List.take_add]

theorem slice_initial (hab : a ≤ b) {c : ℕ} (hbc : b ≤ c) :
    slice log k a b <+: slice log k a c :=
  ⟨slice log k b c, slice_trans hab hbc⟩

/-- Nothing of the channel stands between two positions. -/
theorem slice_eq_nil (h : ∀ j p, a ≤ j → j < b → log[j]? = some p → p.key ≠ k) :
    slice log k a b = [] := by
  refine List.eq_nil_iff_forall_not_mem.mpr fun p hp => ?_
  obtain ⟨hkey, j, haj, hjb, hj⟩ := mem_slice.mp hp
  exact h j p haj hjb hj hkey

/-- The post at the end of a slice. -/
theorem slice_succ (hab : a ≤ b) (hp : log[b]? = some p) :
    slice log k a (b + 1) = slice log k a b ++ if p.key = k then [p] else [] := by
  rw [← slice_trans hab (Nat.le_succ b)]
  congr 1
  obtain ⟨hlt, rfl⟩ := List.getElem?_eq_some_iff.mp hp
  have hone : b.succ - b = 0 + 1 := by omega
  rw [slice, segment, List.drop_eq_getElem_cons hlt, hone, List.take_succ_cons, List.take_zero]
  by_cases h : log[b].key = k <;> simp [h]

/-- What is read off the items of a channel. -/
theorem filterMap_segment {β : Type*} {f : κ × μ → Option β} (hf : ∀ x, (f x).isSome → x.1 = k) :
    ((segment log a b).map Post.item).filterMap f = (slice log k a b).filterMap (f ∘ Post.item) := by
  rw [slice, List.filterMap_map, List.filterMap_filter]
  refine List.filterMap_congr fun p _ => ?_
  cases hp : (f ∘ Post.item) p with
  | none => simp
  | some b => simp [show p.key = k from hf p.item (by simpa using congrArg Option.isSome hp)]

/-! ## Seeking -/

section Seek

/-- The position of the first post of a channel at a time or later. -/
def seek [LE τ] [DecidableLE τ] (log : List (Post κ τ μ)) (k : κ) (fromTime : τ) : ℕ :=
  log.findIdx fun p => decide (p.key = k ∧ fromTime ≤ p.time)

variable [LE τ] [DecidableLE τ] {fromTime : τ}

theorem seek_le_length : seek log k fromTime ≤ log.length := List.findIdx_le_length

/-- What is skipped is not of the channel, or too old. -/
theorem not_le_of_lt_seek (h : i < seek log k fromTime) (hp : log[i]? = some p)
    (hkey : p.key = k) : ¬ fromTime ≤ p.time := by
  obtain ⟨hlt, rfl⟩ := List.getElem?_eq_some_iff.mp hp
  have hskip := List.not_of_lt_findIdx h
  simpa [hkey] using hskip

/-- What is found is not too old. -/
theorem le_time_of_seek (h : log[seek log k fromTime]? = some p) :
    p.key = k ∧ fromTime ≤ p.time := by
  obtain ⟨hlt, rfl⟩ := List.getElem?_eq_some_iff.mp h
  exact of_decide_eq_true (List.findIdx_getElem (w := hlt))

/-- What is too old is skipped. -/
theorem le_seek (ha : a ≤ log.length)
    (hold : ∀ j p, j < a → log[j]? = some p → p.key = k → ¬ fromTime ≤ p.time) :
    a ≤ seek log k fromTime := by
  by_cases hlt : seek log k fromTime < log.length
  · refine Nat.le_of_not_lt fun h => ?_
    have hp := List.getElem?_eq_getElem hlt
    exact hold _ _ h hp (le_time_of_seek hp).1 (le_time_of_seek hp).2
  · omega

end Seek

end Log

/-! ## Readers -/

namespace Inbox

open Log

variable {κ τ μ : Type*} (inbox : Inbox κ) (log : List (Post κ τ μ))

/-- A post is unread at its position. -/
def Unread (i : ℕ) (p : Post κ τ μ) : Prop := ∃ n ∈ inbox p.key, n ≤ i

instance (i : ℕ) (p : Post κ τ μ) : Decidable (inbox.Unread i p) :=
  inferInstanceAs (Decidable (∃ n ∈ inbox p.key, n ≤ i))

/-- The first post that is unread, with its position. -/
def next : Option (ℕ × Post κ τ μ) :=
  (log.zipIdx.find? fun e => decide (inbox.Unread e.2 e.1)).map fun e => (e.2, e.1)

variable {inbox log} {k : κ} {i n : ℕ} {p q : Post κ τ μ}

theorem next_eq_some :
    inbox.next log = some (i, p) ↔
      log[i]? = some p ∧ inbox.Unread i p ∧
        ∀ j q, j < i → log[j]? = some q → ¬ inbox.Unread j q := by
  rw [next, Option.map_eq_some_iff]
  constructor
  · rintro ⟨⟨p', i'⟩, hfind, heq⟩
    obtain ⟨rfl, rfl⟩ := Prod.mk.inj heq
    obtain ⟨hunread, before, after, hsplit, hbefore⟩ := List.find?_eq_some_iff_append.mp hfind
    have hget : log.zipIdx[before.length]? = some (p', i') := by simp [hsplit]
    rw [List.getElem?_zipIdx] at hget
    obtain ⟨q, hq, heq⟩ := Option.map_eq_some_iff.mp hget
    obtain ⟨rfl, rfl⟩ := Prod.mk.inj heq
    rw [Nat.zero_add] at hunread ⊢
    refine ⟨hq, of_decide_eq_true hunread, fun j q' hj hq' => ?_⟩
    have hmem : (q', j) ∈ before := by
      have hget : log.zipIdx[j]? = some (q', j) := by simp [List.getElem?_zipIdx, hq']
      rw [hsplit, List.getElem?_append_left hj] at hget
      exact List.mem_of_getElem? hget
    simpa using hbefore _ hmem
  · rintro ⟨hp, hunread, hbefore⟩
    refine ⟨(p, i), List.find?_eq_some_iff_append.mpr ⟨decide_eq_true hunread, ?_⟩, rfl⟩
    obtain ⟨hlt, hget⟩ := List.getElem?_eq_some_iff.mp hp
    refine ⟨log.zipIdx.take i, log.zipIdx.drop (i + 1), ?_, ?_⟩
    · have hlt' : i < log.zipIdx.length := by simpa using hlt
      have helem : log.zipIdx[i] = (p, i) := by simp [hget]
      rw [← helem, ← List.drop_eq_getElem_cons hlt', List.take_append_drop]
    · rintro ⟨q, j⟩ hq
      obtain ⟨j', hj'⟩ := List.mem_iff_getElem?.mp hq
      rw [List.getElem?_take] at hj'
      split at hj'
      · rw [List.getElem?_zipIdx] at hj'
        obtain ⟨q', hq', heq⟩ := Option.map_eq_some_iff.mp hj'
        obtain ⟨rfl, rfl⟩ := Prod.mk.inj heq
        simpa using hbefore j' q' ‹_› hq'
      · simp at hj'

section Next

variable (hnext : inbox.next log = some (i, p)) (hn : inbox p.key = some n)

include hnext in
theorem lt_length_of_next : i < log.length :=
  (List.getElem?_eq_some_iff.mp (next_eq_some.mp hnext).1).1

include hnext in
/-- Nothing that stands before is unread. -/
theorem lt_of_next {j n : ℕ} {q : Post κ τ μ} (hj : j < i) (hq : log[j]? = some q)
    (hn : inbox q.key = some n) : j < n :=
  Nat.lt_of_not_le fun hle => (next_eq_some.mp hnext).2.2 j q hj hq ⟨n, hn, hle⟩

include hnext hn in
theorem le_of_next : n ≤ i := by
  obtain ⟨n', hn', hle⟩ := (next_eq_some.mp hnext).2.1
  rw [hn, Option.mem_some_iff] at hn'
  omega

variable [DecidableEq κ]

include hnext hn in
theorem slice_nil_of_next : slice log p.key n i = [] := by
  refine slice_eq_nil fun j q hnj hji hq hkey => ?_
  have hlt := lt_of_next hnext hji hq (hkey ▸ hn)
  omega

include hnext hn in
/-- What was read of a channel, and the post that is read. -/
theorem slice_next {a : ℕ} (ha : a ≤ n) :
    slice log p.key a (i + 1) = slice log p.key a n ++ [p] := by
  obtain ⟨hp, -, -⟩ := next_eq_some.mp hnext
  have hle := le_of_next hnext hn
  rw [slice_succ (by omega) hp, ← slice_trans ha hle, slice_nil_of_next hnext hn,
    List.append_nil, if_pos rfl]

include hnext in
/-- What stands before in a channel that is joined has been read. -/
theorem slice_prefix_of_next {a n : ℕ} (ha : a ≤ n) (hn : inbox k = some n) :
    slice log k a i <+: slice log k a n := by
  by_cases hle : i ≤ n
  · by_cases hai : a ≤ i
    · exact slice_initial hai hle
    · rw [slice_eq_nil fun j _ haj hji => by omega]
      exact List.nil_prefix
  · have hnil : slice log k n i = [] := by
      refine slice_eq_nil fun j q hnj hji hq hkey => ?_
      have hlt := lt_of_next hnext hji hq (hkey ▸ hn)
      omega
    have hsame : slice log k a i = slice log k a n := by
      rw [← slice_trans ha (by omega : n ≤ i), hnil, List.append_nil]
    exact ⟨[], by rw [List.append_nil, hsame]⟩

end Next

/-! ### Positions -/

section Positions

variable [DecidableEq κ] (inbox log)

/-- A post is read. -/
def take (k : κ) (i : ℕ) : Inbox κ := Function.update inbox k (some (i + 1))

/-- Channels are joined from a time on, or left. -/
def adjust [LE τ] [DecidableLE τ] (joins : κ → Option τ) : Inbox κ :=
  fun k => (joins k).map fun fromTime => (inbox k).getD (seek log k fromTime)

variable {inbox log}

@[simp] theorem take_self : inbox.take k i k = some (i + 1) := Function.update_self ..

theorem take_of_ne {k' : κ} (h : k' ≠ k) : inbox.take k i k' = inbox k' :=
  Function.update_of_ne h ..

theorem le_length_of_take (hnext : inbox.next log = some (i, p))
    (hbound : ∀ k n, inbox k = some n → n ≤ log.length) (hn : inbox.take p.key i k = some n) :
    n ≤ log.length := by
  by_cases hk : k = p.key
  · subst hk
    rw [take_self, Option.some.injEq] at hn
    have hlt := lt_length_of_next hnext
    omega
  · rw [take_of_ne hk] at hn
    exact hbound k n hn

variable [LE τ] [DecidableLE τ] {joins : κ → Option τ} {fromTime : τ}

@[simp] theorem isSome_adjust : (inbox.adjust log joins k).isSome = (joins k).isSome := by
  simp [adjust]

/-- A channel that is still joined. -/
theorem adjust_of_some (hn : inbox k = some n) (hjoin : (joins k).isSome) :
    inbox.adjust log joins k = some n := by
  obtain ⟨fromTime, h⟩ := Option.isSome_iff_exists.mp hjoin
  simp [adjust, h, hn]

/-- A channel that is joined. -/
theorem adjust_of_none (hn : inbox k = none) (hjoin : joins k = some fromTime) :
    inbox.adjust log joins k = some (seek log k fromTime) := by
  simp [adjust, hjoin, hn]

/-- The position in a channel after a post is read. -/
theorem adjust_take (hn : inbox k = some n) (hjoin : (joins k).isSome) :
    (inbox.take p.key i).adjust log joins k = some (if k = p.key then i + 1 else n) := by
  by_cases hk : k = p.key
  · subst hk
    rw [if_pos rfl, adjust_of_some take_self hjoin]
  · rw [if_neg hk, adjust_of_some ((take_of_ne hk).trans hn) hjoin]

theorem le_length_of_adjust (hbound : ∀ k n, inbox k = some n → n ≤ log.length)
    (hn : inbox.adjust log joins k = some n) : n ≤ log.length := by
  obtain ⟨fromTime, -, rfl⟩ := Option.map_eq_some_iff.mp hn
  cases hk : inbox k with
  | none => exact seek_le_length
  | some n => exact hbound k n hk

end Positions

end Inbox
