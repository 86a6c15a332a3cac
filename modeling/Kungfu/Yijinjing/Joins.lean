import Kungfu.Yijinjing.PageFit
import Kungfu.Yijinjing.JoinFailure
import Kungfu.Yijinjing.LiveMerge

/-!
# The journals of a lazy reader

A reader of an assemble is lazy: it maps pages read-only, so a seek moves the cursor and
nothing else.  As long as every join has returned, each of its journals stands in a page and
carries the location and the dest of its key.  Then a join completes exactly when the journal
is joined already or a seek of a new journal object returns, and `disjoin_channel` completes
always.
-/

namespace Kungfu.Yijinjing

open Outcome

/-! ## A read-only seek -/

/-- A load through a read-only mapping changes no page file. -/
theorem Page.load_readOnly (d : Dir) (id : ℕ) :
    Post (Page.load d id false true) (· = d) fun _ => True := by
  rw [Page.load, if_neg (show ¬ (false || !true) = true by simp)]
  by_cases hid : id ∈ d.ids
  · rw [if_neg (not_not.mpr hid)]
    by_cases hsize : (d.file id).size < pageHeaderSize
    · rw [if_pos hsize]
      simp
    · rw [if_neg hsize]
      generalize lastFramePosition (d.mem id) = position
      split
      · exact post_error.mpr trivial
      · exact (checkHeader_post d id).mono (fun _ h => h) fun _ _ => trivial
  · rw [if_pos hid]
    simp

namespace Journal

/-- What a read-only operation leaves: the page files as they were, and the same journal
object in some page. -/
def Placed (s s' : State) : Prop := s'.1 = s.1 ∧ ∃ c, s'.2 = { s.2 with cursor := some c }

/-- The journal object maps pages read-only. -/
def ReadOnly (s : State) : Prop := s.2.isWriting = false ∧ s.2.lazy = true

variable {s s' s'' : State}

theorem Placed.trans (h : Placed s s') (h' : Placed s' s'') : Placed s s'' := by
  obtain ⟨hdir, c, hj⟩ := h
  obtain ⟨hdir', c', hj'⟩ := h'
  exact ⟨hdir'.trans hdir, c', by rw [hj', hj]⟩

theorem Placed.readOnly (h : Placed s s') (H : ReadOnly s) : ReadOnly s' := by
  obtain ⟨-, c, hj⟩ := h
  rw [ReadOnly, hj]
  exact H

theorem loadPage_readOnly (H : ReadOnly s) (id : ℕ) :
    Post (loadPage s id) (Placed s) fun _ => True := by
  rw [loadPage]
  refine post_ite (fun _ => ⟨rfl, _, rfl⟩) fun _ => ?_
  have hload := Page.load_readOnly s.1 id
  rw [H.1, H.2]
  cases hx : Page.load s.1 id false true with
  | error e => trivial
  | ok d =>
      rw [hx, post_ok] at hload
      exact ⟨hload, _, rfl⟩

theorem loadNextPage_readOnly (H : ReadOnly s) :
    Post (loadNextPage s) (Placed s) fun _ => True := by
  rw [loadNextPage]
  cases s.2.cursor with
  | none => trivial
  | some c => exact loadPage_readOnly H (c.page + 1)

theorem next_readOnly (H : ReadOnly s) : Post (next s) (Placed s) fun _ => True := by
  rw [next]
  cases s.2.cursor with
  | none => trivial
  | some c => exact post_ite (fun _ => loadNextPage_readOnly H) fun _ => ⟨rfl, _, rfl⟩

theorem skipPages_readOnly (H : ReadOnly s) (nanotime : Int64) (fuel : ℕ) :
    Post (skipPages nanotime fuel s) (Placed s) fun _ => True := by
  induction fuel generalizing s with
  | zero => trivial
  | succ fuel ih =>
      rw [skipPages]
      cases hc : s.2.cursor with
      | none => trivial
      | some c =>
          refine post_ite (fun _ => ?_) fun _ => ⟨rfl, c, by rw [← hc]⟩
          refine (loadNextPage_readOnly H).bind fun t ht => ?_
          exact (ih (ht.readOnly H)).imp fun t' ht' => ht.trans ht'

theorem skipFrames_readOnly (H : ReadOnly s) (nanotime : Int64) (fuel : ℕ) :
    Post (skipFrames nanotime fuel s) (Placed s) fun _ => True := by
  induction fuel generalizing s with
  | zero => trivial
  | succ fuel ih =>
      rw [skipFrames]
      cases hc : s.2.cursor with
      | none => trivial
      | some c =>
          refine post_ite (fun _ => ?_) fun _ => ⟨rfl, c, by rw [← hc]⟩
          refine (next_readOnly H).bind fun t ht => ?_
          exact (ih (ht.readOnly H)).imp fun t' ht' => ht.trans ht'

/-- A read-only seek moves the cursor and nothing else. -/
theorem seekToTime_readOnly (H : ReadOnly s) (nanotime : Int64) :
    Post (seekToTime s nanotime) (Placed s) fun _ => True := by
  refine Post.bind (Q := fun _ => True) (Post.of_forall_ok fun _ _ => trivial) fun id _ => ?_
  refine (loadPage_readOnly H id).bind fun t ht => ?_
  refine (skipPages_readOnly (ht.readOnly H) nanotime _).bind fun t' ht' => ?_
  refine (skipFrames_readOnly (ht'.readOnly (ht.readOnly H)) nanotime _).imp fun t'' ht'' => ?_
  exact ht.trans (ht'.trans ht'')

end Journal

/-- A reader that joins the journal finds its pages and a place in them. -/
def Opens (d : Dir) (k : Key) (fromTime : Int64) : Prop :=
  ∃ s, Journal.seekToTime (d, Reader.fresh true k) fromTime = .ok s

namespace Reader

variable {s s' : State} {k k' : Key}

/-- Joins of several journals from one time; each call has its own place in the hash map and
reads the clock anew. -/
def joinKeys (env : ℕ → HashOrder × Int64) (fromTime : Int64) (ks : List Key) (s : State) :
    Result :=
  joinAll (ks.mapIdx fun i k => ⟨(env i).1, (env i).2, k, fromTime⟩) s

/-- Calls of `disjoin_channel` for several journals, each with its own reading of the clock. -/
def disjoinKeys (now : ℕ → Int64) (ks : List Key) (s : State) : Result :=
  (ks.mapIdx fun i k => (now i, k)).foldlM (fun s c => disjoinChannel c.1 c.2 s) s

/-! ## What every completed operation keeps -/

/-- A lazy reader, not in live mode, whose journals all stand in a page. -/
structure Ready (r : Reader) : Prop where
  wf : Wf false r
  isLazy : r.lazy = true
  placed : ∀ e ∈ r.journals, ∃ c, e.2 = { fresh true e.1 with cursor := some c }

namespace Ready

theorem make : Ready (Reader.make true false) :=
  ⟨⟨List.nodup_nil, fun _ h => absurd h (by simp [Reader.make]), rfl⟩, rfl,
    fun _ h => absurd h List.not_mem_nil⟩

theorem positioned {r : Reader} (H : Ready r) : Positioned r := by
  intro e he
  obtain ⟨c, hc⟩ := H.placed e he
  rw [hc]
  rfl

/-- A journal carries the location and the dest of its key. -/
theorem named {r : Reader} (H : Ready r) :
    r.journals.map (fun e => (⟨e.2.location, e.2.dest⟩ : Key)) = r.keys := by
  refine List.map_congr_left fun e he => ?_
  obtain ⟨c, hc⟩ := H.placed e he
  rw [hc]
  rfl

theorem sort (H : Ready s.2) (now : Int64) :
    ∃ s', Reader.sort now s = .ok s' ∧ Ready s'.2 ∧ s'.1 = s.1 ∧
      s'.2.journals = s.2.journals := by
  have hwf := H.wf.sort (s := s) now
  rw [sort_ok H.positioned] at hwf ⊢
  exact ⟨_, rfl, ⟨hwf, H.isLazy, H.placed⟩, rfl, rfl⟩

/-- `data_available` completes and joins nothing. -/
theorem dataAvailable (H : Ready s.2) (now : Int64) :
    ∃ available s', Reader.dataAvailable now s = .ok (available, s') ∧ Ready s'.2 ∧
      s'.2.journals = s.2.journals := by
  obtain ⟨s', hsort, H', -, hjournals⟩ := H.sort now
  obtain ⟨available, havail, -⟩ := dataAvailable_of_sort H'.wf H'.positioned hsort
  exact ⟨available, s', havail, H', hjournals⟩

/-! ## Joining -/

/-- What a join of `k` leaves. -/
structure Joined (s s' : State) (k : Key) : Prop where
  ready : Ready s'.2
  dirs : s'.1 = s.1
  keys : ∀ k', k' ∈ s'.2.keys ↔ k' = k ∨ k' ∈ s.2.keys

theorem insert (H : Ready s.2) (order : HashOrder) {fromTime : Int64}
    (hopen : k ∈ s.2.keys ∨ Opens (s.1 k) k fromTime) :
    ∃ s', Reader.insert order k fromTime s = .ok s' ∧ Joined s s' k := by
  by_cases hk : k ∈ s.2.keys
  · refine ⟨s, by rw [Reader.insert, if_pos (lookup_isSome_iff.mpr hk)], H, rfl, fun k' => ?_⟩
    exact ⟨Or.inr, fun h => h.elim (fun heq => heq ▸ hk) id⟩
  obtain ⟨⟨d, j⟩, hseek⟩ := hopen.resolve_left hk
  obtain ⟨hdir, c, hj⟩ := (Journal.seekToTime_readOnly ⟨rfl, rfl⟩ fromTime).of_ok hseek
  obtain rfl : d = s.1 k := hdir
  have hlook := lookup_emplace H.wf order hk
  have hnone : ¬ (s.2.journals.lookup k).isSome = true := mt lookup_isSome_iff.mp hk
  rw [← H.isLazy] at hseek
  refine ⟨set (emplace order k s) k (s.1 k) j, ?_, ⟨?_, H.isLazy, fun e he => ?_⟩, ?_, fun k' => ?_⟩
  · rw [Reader.insert, if_neg hnone, onJournal, hlook]
    simp only [emplace] at hseek ⊢
    rw [hseek]
  · exact (H.wf.emplace order hk).set k (s.1 k) j
  · obtain ⟨e₀, he₀, rfl⟩ := List.mem_map.mp he
    split
    · exact ⟨c, hj⟩
    · rename_i hne
      rcases List.mem_cons.mp ((order.perm _).mem_iff.mp he₀) with rfl | hold
      · exact absurd rfl hne
      · exact H.placed e₀ hold
  · exact Function.update_eq_self k s.1
  · rw [keys_set, (keys_emplace order k s).mem_iff, List.mem_cons]

/-- A join completes if the journal is joined already or opens. -/
theorem join (H : Ready s.2) (order : HashOrder) (now : Int64) {fromTime : Int64}
    (hopen : k ∈ s.2.keys ∨ Opens (s.1 k) k fromTime) :
    ∃ s', Reader.join order now k fromTime s = .ok s' ∧ Joined s s' k := by
  obtain ⟨t, hinsert, ht⟩ := H.insert order hopen
  rw [Reader.join, hinsert, ok_bind]
  split
  · obtain ⟨s', hsort, H', hdirs, hjournals⟩ := ht.ready.sort now
    refine ⟨s', hsort, H', hdirs.trans ht.dirs, fun k' => ?_⟩
    rw [Reader.keys, hjournals]
    exact ht.keys k'
  · exact ⟨t, rfl, ht⟩

/-- Nothing else is joined. -/
theorem opens_of_join (H : Ready s.2) {order : HashOrder} {now fromTime : Int64}
    (h : Reader.join order now k fromTime s = .ok s') :
    k ∈ s.2.keys ∨ Opens (s.1 k) k fromTime := by
  by_cases hk : k ∈ s.2.keys
  · exact Or.inl hk
  refine Or.inr ?_
  cases hseek : Journal.seekToTime (s.1 k, fresh true k) fromTime with
  | ok t => exact ⟨t, hseek⟩
  | error e =>
      obtain ⟨fault, d, j⟩ := e
      rw [← H.isLazy] at hseek
      rw [join_throws H.wf hk order hseek now] at h
      cases h

theorem joinAll {joins : List Join} (H : Ready s.2)
    (hopen : ∀ j ∈ joins, j.key ∈ s.2.keys ∨ Opens (s.1 j.key) j.key j.fromTime) :
    ∃ s', Reader.joinAll joins s = .ok s' ∧ Ready s'.2 ∧ s'.1 = s.1 ∧
      ∀ k, k ∈ s'.2.keys ↔ k ∈ joins.map Join.key ∨ k ∈ s.2.keys := by
  induction joins generalizing s with
  | nil => exact ⟨s, rfl, H, rfl, by simp⟩
  | cons j joins ih =>
      obtain ⟨t, hjoin, ht⟩ := H.join j.order j.now (hopen j List.mem_cons_self)
      obtain ⟨s', hjoins, H', hdirs, hkeys⟩ := ih ht.ready fun i hi => by
        rw [ht.dirs, ht.keys]
        exact (hopen i (List.mem_cons_of_mem j hi)).imp_left Or.inr
      refine ⟨s', ?_, H', hdirs.trans ht.dirs, fun k => ?_⟩
      · rw [Reader.joinAll, List.foldlM_cons, hjoin]
        exact hjoins
      · rw [hkeys, ht.keys, List.map_cons, List.mem_cons]
        tauto

theorem opens_of_joinAll {joins : List Join} {fromTime : Int64} (H : Ready s.2)
    (htime : ∀ j ∈ joins, j.fromTime = fromTime) (h : Reader.joinAll joins s = .ok s') :
    ∀ j ∈ joins, j.key ∈ s.2.keys ∨ Opens (s.1 j.key) j.key fromTime := by
  induction joins generalizing s with
  | nil => exact fun j hj => absurd hj List.not_mem_nil
  | cons j joins ih =>
      rw [Reader.joinAll, List.foldlM_cons] at h
      obtain ⟨t, hjoin, hjoins⟩ := exists_of_bind h
      have hfirst := H.opens_of_join hjoin
      obtain ⟨t', hjoin', ht⟩ := H.join j.order j.now hfirst
      obtain rfl : t' = t := Except.ok.inj (hjoin'.symm.trans hjoin)
      rw [htime j List.mem_cons_self] at hfirst
      intro i hi
      rcases List.mem_cons.mp hi with rfl | hi
      · exact hfirst
      rcases ih ht.ready (fun i hi => htime i (List.mem_cons_of_mem j hi)) hjoins i hi with hk | hk
      · -- what the first join has joined opened for it
        rcases (ht.keys i.key).mp hk with heq | hk
        · exact heq ▸ hfirst
        · exact Or.inl hk
      · exact Or.inr (ht.dirs ▸ hk)

/-- A series of joins completes if each journal is joined already or opens. -/
theorem joinKeys (H : Ready s.2) (env : ℕ → HashOrder × Int64) {fromTime : Int64} {ks : List Key}
    (hopen : ∀ k ∈ ks, k ∈ s.2.keys ∨ Opens (s.1 k) k fromTime) :
    ∃ s', Reader.joinKeys env fromTime ks s = .ok s' ∧ Ready s'.2 ∧ s'.1 = s.1 ∧
      ∀ k, k ∈ s'.2.keys ↔ k ∈ ks ∨ k ∈ s.2.keys := by
  obtain ⟨s', hjoins, H', hdirs, hkeys⟩ :=
    @joinAll s (ks.mapIdx fun i k => ⟨(env i).1, (env i).2, k, fromTime⟩) H fun j hj => by
      obtain ⟨i, hi, rfl⟩ := List.mem_mapIdx.mp hj
      exact hopen _ (List.getElem_mem hi)
  refine ⟨s', hjoins, H', hdirs, fun k => (hkeys k).trans (or_congr_left ?_)⟩
  have hmap : (ks.mapIdx fun i k => (⟨(env i).1, (env i).2, k, fromTime⟩ : Join)).map Join.key =
      ks := List.ext_getElem (by simp) fun i _ _ => by simp
  rw [hmap]

theorem opens_of_joinKeys {env : ℕ → HashOrder × Int64} {fromTime : Int64} {ks : List Key}
    (H : Ready s.2) (h : Reader.joinKeys env fromTime ks s = .ok s') :
    ∀ k ∈ ks, k ∈ s.2.keys ∨ Opens (s.1 k) k fromTime := by
  intro k hk
  obtain ⟨i, hi, rfl⟩ := List.mem_iff_getElem.mp hk
  refine H.opens_of_joinAll (fun j hj => ?_) h _ (List.mem_mapIdx.mpr ⟨i, hi, rfl⟩)
  obtain ⟨i, hi, rfl⟩ := List.mem_mapIdx.mp hj
  rfl

/-! ## Removing -/

/-- `disjoin_channel` completes, and removes the journal. -/
theorem disjoinChannel (H : Ready s.2) (now : Int64) (k : Key) :
    ∃ s', Reader.disjoinChannel now k s = .ok s' ∧ Ready s'.2 ∧ s'.1 = s.1 ∧
      ∀ k', k' ∈ s'.2.keys ↔ k' ≠ k ∧ k' ∈ s.2.keys := by
  have hsub := List.eraseP_sublist (p := fun e => decide (e.1 = k)) (l := s.2.journals)
  have Hleft : Ready { s.2 with
      current := none, journals := s.2.journals.eraseP fun e => e.1 = k } :=
    ⟨⟨H.wf.nodup.sublist (hsub.map Prod.fst), fun _ h => absurd h (by simp), H.wf.liveMode⟩,
      H.isLazy, fun e he => H.placed e (hsub.subset he)⟩
  obtain ⟨s', hsort, H', hdirs, hjournals⟩ := sort (s := (s.1, _)) Hleft now
  refine ⟨s', hsort, H', hdirs, fun k' => ?_⟩
  have herase : (s.2.journals.eraseP fun e => e.1 = k).map Prod.fst = s.2.keys.erase k := by
    rw [List.erase_eq_eraseP', keys, List.eraseP_map]
    refine congrArg (fun p => (s.2.journals.eraseP p).map Prod.fst) (funext fun e => ?_)
    rw [Function.comp_apply, beq_eq_decide]
  rw [Reader.keys, hjournals, herase, H.wf.nodup.mem_erase_iff]

/-- A series of removals completes. -/
theorem disjoinKeys (H : Ready s.2) (now : ℕ → Int64) (ks : List Key) :
    ∃ s', Reader.disjoinKeys now ks s = .ok s' ∧ Ready s'.2 ∧ s'.1 = s.1 ∧
      ∀ k, k ∈ s'.2.keys ↔ k ∉ ks ∧ k ∈ s.2.keys := by
  induction ks generalizing s now with
  | nil => exact ⟨s, rfl, H, rfl, by simp⟩
  | cons k ks ih =>
      obtain ⟨t, hfirst, Ht, hdirs, hkeys⟩ := H.disjoinChannel (now 0) k
      obtain ⟨s', hrest, H', hdirs', hkeys'⟩ := ih Ht fun i => now (i + 1)
      refine ⟨s', ?_, H', hdirs'.trans hdirs, fun k' => ?_⟩
      · rw [Reader.disjoinKeys, List.mapIdx_cons, List.foldlM_cons, hfirst]
        exact hrest
      · rw [hkeys', hkeys, List.mem_cons]
        tauto

end Ready

end Reader

end Kungfu.Yijinjing
