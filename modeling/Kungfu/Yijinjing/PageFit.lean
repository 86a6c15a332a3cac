import Kungfu.Yijinjing.Reopen
import Kungfu.Logic.Outcome

/-!
# Stores stay in the page

A weaker invariant than `Dir.Holds` survives every history, also one whose restarts
overwrite frames: the page headers are sound and the writer's position is past them.
Under it a write leaves the mapping of its page only when it switches the page, in one
of two ways: the frame does not fit the empty page behind its header, or the end mark does
not fit behind the last frame of the old page.
-/

namespace Kungfu.Yijinjing

open Memory Outcome

variable {d : Dir} {P : UInt32}

/-! ## The invariant -/

/-- A page header as `page::load` accepts it. -/
structure HeaderSound (P : UInt32) (m : Mem) : Prop where
  headerLength : (Page.pageHeaderLength m).toNat = pageHeaderSize
  pageSize : Page.pageSize m = P
  lastFrame : pageHeaderSize ≤ Page.lastFrameAddress m

/-- Every page file has a sound header. -/
structure Dir.Sound (d : Dir) (P : UInt32) : Prop where
  pageSize : d.pageSize = P
  header : ∀ id ∈ d.ids, HeaderSound P (d.mem id)

/-- The journal object stands in a page of a sound directory, past the page header. -/
structure Journal.Sound (P : UInt32) (s : Journal.State) : Prop where
  dir : s.1.Sound P
  cursor : ∀ c, s.2.cursor = some c → c.page ∈ s.1.ids ∧ pageHeaderSize ≤ c.frame

/-- The error is not a store past a mapping. -/
def Fault.inMapping (fault : Fault) : Prop := fault ≠ .outOfMapping

theorem HeaderSound.keep {m m' : Mem} (H : HeaderSound P m)
    (h : Set.EqOn m' m (Set.Ico 0 pageHeaderSize)) : HeaderSound P m' := by
  have hfield : ∀ {α : Type} [Scalar α] (k : ℕ), k + Scalar.width α ≤ pageHeaderSize →
      m'.get α k = m.get α k := fun k hk => Mem.get_eqOn h (Nat.zero_le k) hk
  refine ⟨?_, ?_, ?_⟩
  · rw [← H.headerLength]
    exact congrArg UInt32.toNat (hfield 4 (by simp [pageHeaderSize]))
  · exact (hfield 8 (by simp [pageHeaderSize])).trans H.pageSize
  · refine H.lastFrame.trans_eq ?_
    exact congrArg UInt64.toNat (hfield 16 (by simp [pageHeaderSize])).symm

theorem HeaderSound.lastFramePosition_ne {m : Mem} (H : HeaderSound P m) :
    Page.lastFramePosition m ≠ 0 := by
  intro h
  have hge := H.lastFrame
  simp [Page.lastFrameAddress, h, pageHeaderSize] at hge

/-- `set_last_frame_position` keeps a header sound. -/
theorem HeaderSound.moveLast {m m' : Mem} (H : HeaderSound P m)
    (h : Set.EqOn m' m (Set.Ico 0 16)) (hlast : pageHeaderSize ≤ Page.lastFrameAddress m') :
    HeaderSound P m' := by
  refine ⟨?_, ?_, hlast⟩
  · rw [← H.headerLength]
    exact congrArg UInt32.toNat (Mem.get_eqOn h (Nat.zero_le 4) (by simp))
  · exact (Mem.get_eqOn h (Nat.zero_le 8) (by simp)).trans H.pageSize

namespace Dir.Sound

theorem setMem (H : d.Sound P) {id : ℕ} {m : Mem} (h : HeaderSound P m) :
    (d.setMem id m).Sound P := by
  refine ⟨H.pageSize, fun i hi => ?_⟩
  by_cases hid : i = id
  · subst hid
    simpa using h
  · rw [Dir.mem_setMem_of_ne _ _ hid]
    exact H.header i hi

theorem stretch (H : d.Sound P) (hP : pageHeaderSize < P.toNat) {id : ℕ} (h : id ∈ d.ids) :
    (d.stretch id).Sound P := by
  refine ⟨H.pageSize, fun i hi => (H.header i (by simpa [Dir.stretch, h] using hi)).keep ?_⟩
  refine (Dir.eqOn_stretch h i).mono (Set.Ico_subset_Ico_right ?_)
  rw [Dir.mappingSize, H.pageSize]
  omega

theorem addPage (H : d.Sound P) (hP : pageHeaderSize < P.toNat) {id : ℕ} (h : id ∉ d.ids) :
    (d.addPage id).Sound P := by
  refine ⟨H.pageSize, fun i hi => ?_⟩
  by_cases hid : i = id
  · subst hid
    have hnew := Dir.initHeader_holds hP
    rw [Dir.mem_addPage_same h, H.pageSize]
    exact ⟨hnew.headerLength, hnew.pageSize, hnew.lastFrame ▸ Nat.le_add_right _ _⟩
  · rw [Dir.mem_addPage_of_ne hid]
    refine H.header i ?_
    simpa [Dir.addPage, Dir.stretch, h, hid, List.mem_orderedInsert] using hi

end Dir.Sound

/-! ## Journal operations -/

theorem Page.checkHeader_post (d : Dir) (id : ℕ) :
    Post (Page.checkHeader d id) (· = d) fun e => e.1.inMapping := by
  rw [Page.checkHeader]
  refine post_ite (by simp [Fault.inMapping]) fun _ => ?_
  refine post_ite (by simp [Fault.inMapping]) fun _ => ?_
  exact post_ite (by simp [Fault.inMapping]) fun _ => rfl

/-- A load keeps the other pages and never stores past a mapping. -/
theorem Page.load_post (H : d.Sound P) (hP : pageHeaderSize < P.toNat) (id : ℕ)
    (isWriting lazy : Bool) :
    Post (Page.load d id isWriting lazy)
      (fun d' => d'.Sound P ∧ id ∈ d'.ids ∧ (∀ i ∈ d.ids, i ∈ d'.ids) ∧
        ∀ i ≠ id, d'.mem i = d.mem i) fun e => e.1.inMapping := by
  by_cases hw : (isWriting || !lazy) = true
  · by_cases hid : id ∈ d.ids
    · have H' := H.stretch hP hid
      have hmem : id ∈ (d.stretch id).ids := by simp [Dir.stretch, hid]
      have hlast := (H'.header id hmem).lastFramePosition_ne
      rw [Page.load, if_pos hw]
      simp only [if_neg hlast]
      refine (checkHeader_post _ _).imp fun d' hd' => ?_
      subst hd'
      exact ⟨H', hmem, fun i hi => by simpa [Dir.stretch, hid] using hi,
        fun i hi => Dir.mem_stretch_of_ne hi⟩
    · rw [Dir.load_absent hid (by rw [Dir.mappingSize, H.pageSize]; exact hP) hw, post_ok]
      refine ⟨H.addPage hP hid, ?_, fun i hi => ?_, fun i hi => Dir.mem_addPage_of_ne hi⟩
      · simp [Dir.addPage, Dir.stretch, hid, List.mem_orderedInsert]
      · simp [Dir.addPage, Dir.stretch, hid, List.mem_orderedInsert, hi]
  · rw [Page.load, if_neg hw]
    by_cases hid : id ∈ d.ids
    · rw [if_neg (not_not.mpr hid)]
      have hlast : Page.lastFramePosition (d.mem id) ≠ 0 :=
        (H.header id hid).lastFramePosition_ne
      by_cases hsize : (d.file id).size < pageHeaderSize
      · rw [if_pos hsize]
        simp [Fault.inMapping]
      · rw [if_neg hsize, if_neg hlast]
        refine (checkHeader_post _ _).imp fun d' hd' => ?_
        subst hd'
        exact ⟨H, hid, fun _ hi => hi, fun _ _ => rfl⟩
    · rw [if_pos hid]
      simp [Fault.inMapping]

theorem Page.findFrom_post (H : d.Sound P) (hP : pageHeaderSize < P.toNat) (time : Int64)
    (front : ℕ) (ids : List ℕ) :
    Post (Page.findFrom d time front ids) (fun _ => True) Fault.inMapping := by
  induction ids with
  | nil => trivial
  | cons id ids ih =>
      have hload := Page.load_post H hP id false true
      rw [Page.findFrom]
      cases hx : Page.load d id false true with
      | ok d' =>
          simp only []
          exact post_ite (fun _ => trivial) fun _ => ih
      | error e =>
          obtain ⟨fault, d'⟩ := e
          have hfault : fault.inMapping := hload.of_error hx
          cases fault with
          | journalError e => exact ih
          | _ => exact hfault

theorem Page.findPageId_post (H : d.Sound P) (hP : pageHeaderSize < P.toNat) (time : Int64) :
    Post (Page.findPageId d time) (fun _ => True) Fault.inMapping := by
  rw [Page.findPageId]
  cases hids : d.ids with
  | nil => trivial
  | cons front ids =>
      exact post_ite (fun _ => trivial) fun _ => Page.findFrom_post H hP time front _

namespace Journal

variable {s : Journal.State}

/-- A page switch puts the journal on the first slot of the page. -/
theorem loadPage_post (H : Sound P s) (hP : pageHeaderSize < P.toNat) (id : ℕ) :
    Post (loadPage s id)
      (fun s' => Sound P s' ∧ s'.2 = { s.2 with cursor := some ⟨id, pageHeaderSize, 0⟩ } ∧
        (∀ i ∈ s.1.ids, i ∈ s'.1.ids) ∧ ∀ i ≠ id, s'.1.mem i = s.1.mem i)
      fun e => e.1.inMapping := by
  have henter : ∀ {d : Dir}, d.Sound P → id ∈ d.ids →
      s.2.enterPage d id = { s.2 with cursor := some ⟨id, pageHeaderSize, 0⟩ } := by
    intro d hd hid
    rw [enterPage, Page.firstFrameAddress, (hd.header id hid).headerLength]
  have hsound : ∀ {d : Dir}, d.Sound P → id ∈ d.ids →
      Sound P (d, { s.2 with cursor := some ⟨id, pageHeaderSize, 0⟩ }) := by
    intro d hd hid
    refine ⟨hd, fun c hc => ?_⟩
    obtain rfl : _ = c := Option.some.inj hc
    exact ⟨hid, le_rfl⟩
  by_cases hcur : s.2.cursor.map Cursor.page = some id
  · obtain ⟨c, hc, rfl⟩ := Option.map_eq_some_iff.mp hcur
    have hid := (H.cursor c hc).1
    rw [loadPage, if_pos hcur, post_ok, henter H.dir hid]
    exact ⟨hsound H.dir hid, by simp, fun _ hi => hi, fun _ _ => rfl⟩
  · have hload := Page.load_post H.dir hP id s.2.isWriting s.2.lazy
    rw [loadPage, if_neg hcur]
    cases hx : Page.load s.1 id s.2.isWriting s.2.lazy with
    | ok d =>
        obtain ⟨hd, hid, hids, hmem⟩ := hload.of_ok hx
        simp only [post_ok, henter hd hid]
        exact ⟨hsound hd hid, trivial, hids, hmem⟩
    | error e => exact hload.of_error hx

theorem loadNextPage_post (H : Sound P s) (hP : pageHeaderSize < P.toNat) :
    Post (loadNextPage s) (Sound P) fun e => e.1.inMapping := by
  rw [loadNextPage]
  cases s.2.cursor with
  | none => simp [Fault.inMapping]
  | some c => exact (loadPage_post H hP (c.page + 1)).imp fun _ h => h.1

theorem next_post (H : Sound P s) (hP : pageHeaderSize < P.toNat) :
    Post (next s) (Sound P) fun e => e.1.inMapping := by
  rw [next]
  cases hc : s.2.cursor with
  | none => simp [Fault.inMapping]
  | some c =>
      refine post_ite (fun _ => loadNextPage_post H hP) fun _ => ?_
      refine ⟨H.dir, fun c' hc' => ?_⟩
      obtain rfl : _ = c' := Option.some.inj hc'
      obtain ⟨hpage, hframe⟩ := H.cursor c hc
      exact ⟨hpage, hframe.trans (Nat.le_add_right _ _)⟩

theorem skipPages_post (hP : pageHeaderSize < P.toNat) (nanotime : Int64) (fuel : ℕ)
    {s : Journal.State} (H : Sound P s) :
    Post (skipPages nanotime fuel s) (Sound P) fun e => e.1.inMapping := by
  induction fuel generalizing s with
  | zero => simp [skipPages, Fault.inMapping]
  | succ fuel ih =>
      rw [skipPages]
      cases s.2.cursor with
      | none => simp [Fault.inMapping]
      | some c =>
          exact post_ite (fun _ => (loadNextPage_post H hP).bind fun _ h => ih h) fun _ => H

theorem skipFrames_post (hP : pageHeaderSize < P.toNat) (nanotime : Int64) (fuel : ℕ)
    {s : Journal.State} (H : Sound P s) :
    Post (skipFrames nanotime fuel s) (Sound P) fun e => e.1.inMapping := by
  induction fuel generalizing s with
  | zero => simp [skipFrames, Fault.inMapping]
  | succ fuel ih =>
      rw [skipFrames]
      cases s.2.cursor with
      | none => simp [Fault.inMapping]
      | some c => exact post_ite (fun _ => (next_post H hP).bind fun _ h => ih h) fun _ => H

theorem seekToTime_post (H : Sound P s) (hP : pageHeaderSize < P.toNat) (nanotime : Int64) :
    Post (seekToTime s nanotime) (Sound P) fun e => e.1.inMapping := by
  have hfind := Page.findPageId_post H.dir hP nanotime
  rw [seekToTime]
  refine Post.bind (Q := fun _ => True) ?_ fun id _ => ?_
  · cases hx : Page.findPageId s.1 nanotime with
    | ok id => trivial
    | error fault => exact hfind.of_error hx
  · refine (loadPage_post H hP id).bind fun s₁ h₁ => ?_
    refine (skipPages_post hP nanotime _ h₁.1).bind fun s₂ h₂ => ?_
    exact skipFrames_post hP nanotime _ h₂

end Journal

/-! ## Writer operations -/

namespace Writer

variable {s : State} {b : Build}

/-- The writer's journal is sound. -/
abbrev Sound (P : UInt32) (s : State) : Prop := Journal.Sound P (s.1, s.2.journal)

/-- A frame of `n` bytes makes the writer leave its page. -/
def Switches (s : State) (n : ℕ) : Prop :=
  ∃ c ∈ s.2.journal.cursor, Page.addressBorder (s.1.mem c.page) ≤ c.frame + n

/-- An end mark fits behind the last frame of the writer's page. -/
def MarkFits (s : State) : Prop :=
  ∀ c ∈ s.2.journal.cursor,
    Page.lastFrameEnd (s.1.mem c.page) + frameHeaderSize ≤ s.1.mappingSize

instance (s : State) (n : ℕ) : Decidable (Switches s n) :=
  inferInstanceAs (Decidable (∃ c ∈ s.2.journal.cursor, _))

instance (s : State) : Decidable (MarkFits s) :=
  inferInstanceAs (Decidable (∀ c ∈ s.2.journal.cursor, _))

/-- The writer's open slot has a header, room for `len` bytes of data and, unless an
assertion guards it, for the empty header behind `n` of them. -/
structure InFrame (P : UInt32) (b : Build) (len n : ℕ) (s : State) : Prop where
  sound : Sound P s
  slot : ∃ c, s.2.journal.cursor = some c ∧
    (FrameHeader.headerLength (s.1.mem c.page) c.frame).toNat = frameHeaderSize ∧
    c.frame + frameHeaderSize + len ≤ P.toNat ∧
    (b = .checked ∨ c.frame + frameHeaderSize + n + frameHeaderSize ≤ P.toNat)

theorem Sound.mappingSize (H : Sound P s) : s.1.mappingSize = P.toNat :=
  congrArg UInt32.toNat H.dir.pageSize

/-- Only the bytes of a page with a sound header were changed. -/
theorem Sound.setMem (H : Sound P s) {id : ℕ} {m : Mem} (hm : HeaderSound P m) :
    Journal.Sound P (s.1.setMem id m, s.2.journal) :=
  ⟨H.dir.setMem hm, H.cursor⟩

theorem onJournal_post {f : Journal.State → Journal.Result} {Q : Journal.State → Prop}
    (h : Post (f (s.1, s.2.journal)) Q fun e => e.1.inMapping) :
    Post (onJournal f s) (fun s' => Q (s'.1, s'.2.journal)) Fault.inMapping := by
  rw [onJournal]
  cases hx : f (s.1, s.2.journal) with
  | ok s' => exact h.of_ok hx
  | error e => exact h.of_error hx

theorem assertThat_post (b : Build) (p : Prop) [Decidable p] :
    Post (assertThat b p) (fun _ => b = .checked → p) Fault.inMapping := by
  rw [assertThat]
  by_cases h : b = .release ∨ p
  · rw [if_pos h, post_ok]
    rintro rfl
    exact h.resolve_left (by decide)
  · rw [if_neg h]
    simp [Fault.inMapping]

theorem putLength_keeps (size : ℕ) (m : Mem) (a : ℕ) (genTime : Int64) (dataLength : ℕ)
    (h : a + 16 ≤ size) :
    ∃ m', putLength size m a genTime dataLength = .ok m' ∧ Set.EqOn m' m (Set.Ico 0 a) := by
  let m₁ := m.put (a + 8) genTime
  refine ⟨m₁.put a (FrameHeader.headerLength m₁ a + UInt32.ofNat dataLength), ?_, ?_⟩
  · rw [putLength, putAt_ok _ _ (by simp; omega)]
    exact putAt_ok _ _ (by simp; omega)
  · exact (Mem.eqOn_put _ _ (Or.inl le_rfl)).trans (Mem.eqOn_put _ _ (Or.inl (by omega)))

/-- The last stores of a frame at `a` keep the page header sound. -/
theorem lastFrame_sound {m : Mem} (H : HeaderSound P m) {a : ℕ} (ha : pageHeaderSize ≤ a)
    (hle : a ≤ P.toNat) (hP : pageHeaderSize < P.toNat) :
    ∃ m', putLastFramePosition P.toNat m a = .ok m' ∧ HeaderSound P m' := by
  have hlt := P.toNat_lt
  obtain ⟨m', hput, hlast, hlow, -⟩ := putLastFramePosition_ok P.toNat m a hP.le (by omega)
  exact ⟨m', hput, H.moveLast hlow (hlast ▸ ha)⟩

theorem closePage_post (H : Sound P s) (hP : pageHeaderSize < P.toNat) (hmark : MarkFits s)
    (now triggerTime : Int64) :
    Post (closePage now triggerTime s)
      (fun s' => Sound P s' ∧ ∃ c, s'.2.journal.cursor = some c ∧ c.frame = pageHeaderSize)
      Fault.inMapping := by
  rw [closePage, cursor]
  cases hc : s.2.journal.cursor with
  | none => simp [bind, Except.bind, Fault.inMapping]
  | some c =>
      have hpage := (H.cursor c hc).1
      have hload : Post (onJournal Journal.loadNextPage s) (fun s' => Sound P s' ∧
          s'.2.journal = { s.2.journal with cursor := some ⟨c.page + 1, pageHeaderSize, 0⟩ } ∧
          c.page ∈ s'.1.ids ∧ s'.1.mem c.page = s.1.mem c.page) Fault.inMapping := by
        have hpost := Journal.loadPage_post H hP (c.page + 1)
        have hnext : Journal.loadNextPage (s.1, s.2.journal) =
            Journal.loadPage (s.1, s.2.journal) (c.page + 1) := by
          simp only [Journal.loadNextPage, hc]
        rw [← hnext] at hpost
        exact (onJournal_post hpost).imp fun s' h =>
          ⟨h.1, h.2.1, h.2.2.1 _ hpage, h.2.2.2 _ (Nat.succ_ne_self _).symm⟩
      refine hload.bind fun s' hs' => ?_
      obtain ⟨d, w⟩ := s'
      obtain ⟨H', hj, hid, hmem⟩ := hs'
      have hsize : d.mappingSize = P.toNat := Sound.mappingSize H'
      have hfit := hmark c hc
      rw [Sound.mappingSize H] at hfit
      simp only [hsize, hmem]
      have hhead : HeaderSound P (s.1.mem c.page) := H.dir.header c.page hpage
      have hge : pageHeaderSize ≤ Page.lastFrameEnd (s.1.mem c.page) :=
        hhead.lastFrame.trans (Nat.le_add_right _ _)
      set a := Page.lastFrameEnd (s.1.mem c.page)
      obtain ⟨m₁, hput, -, hlow, -⟩ := putHeader_ok P.toNat (s.1.mem c.page) a hfit triggerTime pageEndTag
        w.journal.location w.journal.dest
      have h₁ : HeaderSound P m₁ :=
        hhead.keep (hlow.mono (Set.Ico_subset_Ico_right (by omega)))
      simp only [frameHeaderSize] at hfit
      obtain ⟨m₂, hlen, hlow₂⟩ := putLength_keeps P.toNat m₁ a now 0 (by omega)
      have h₂ : HeaderSound P m₂ := h₁.keep (hlow₂.mono (Set.Ico_subset_Ico_right hge))
      obtain ⟨m₃, hlast, h₃⟩ := lastFrame_sound h₂ hge (by omega) hP
      simp only [bind, Except.bind, hput, hlen, hlast, post_ok]
      have hjd : w.journal = { s.2.journal with cursor := some ⟨c.page + 1, pageHeaderSize, 0⟩ } :=
        hj
      exact ⟨Sound.setMem (s := (d, w)) H' h₃, ⟨c.page + 1, pageHeaderSize, 0⟩, by rw [hjd], rfl⟩

theorem switchPage_post (H : Sound P s) (hP : pageHeaderSize < P.toNat) {n : ℕ}
    (hmark : Switches s n → MarkFits s) (now triggerTime : Int64) :
    Post (switchPage now triggerTime n s)
      (fun s' => Sound P s' ∧ ∃ c, s'.2.journal.cursor = some c ∧
        (c.frame + n + frameHeaderSize < P.toNat ∨ (c.frame = pageHeaderSize ∧ Switches s n)))
      Fault.inMapping := by
  rw [switchPage, cursor]
  cases hc : s.2.journal.cursor with
  | none => simp [bind, Except.bind, Fault.inMapping]
  | some c =>
      simp only [bind, Except.bind]
      by_cases hfull : Page.addressBorder (s.1.mem c.page) ≤ c.frame + n
      · have hsw : Switches s n := ⟨c, hc, hfull⟩
        rw [if_pos hfull]
        refine (closePage_post H hP (hmark hsw) now triggerTime).imp ?_
        rintro s' ⟨H', c', hc', hframe⟩
        exact ⟨H', c', hc', Or.inr ⟨hframe, hsw⟩⟩
      · have hborder : Page.addressBorder (s.1.mem c.page) = P.toNat - frameHeaderSize := by
          rw [Page.addressBorder, (H.dir.header c.page (H.cursor c hc).1).pageSize]
        rw [if_neg hfull]
        exact ⟨H, c, hc, Or.inl (by omega)⟩

theorem openFrame_post (H : Sound P s) (hP : pageHeaderSize < P.toNat) {len : UInt32} {n : ℕ}
    (hn : n ≤ len.toNat) (haccept : frameHeaderSize + len.toNat + frameHeaderSize ≤ P.toNat)
    (hmark : Switches s (frameHeaderSize + len.toNat) → MarkFits s)
    (hroom : Switches s (frameHeaderSize + len.toNat) →
      b = .checked ∨ pageHeaderSize + frameHeaderSize + n + frameHeaderSize ≤ P.toNat)
    (now triggerTime : Int64) (msgType : Int32) :
    Post (openFrame b now triggerTime msgType len s) (InFrame P b len.toNat n)
      Fault.inMapping := by
  rw [openFrame, cursor]
  cases hc : s.2.journal.cursor with
  | none => simp [bind, Except.bind, Fault.inMapping]
  | some c =>
      refine (assertThat_post b _).bind fun _ _ => ?_
      refine post_ite (fun _ => by simp [Fault.inMapping]) fun _ => ?_
      refine (switchPage_post H hP hmark now triggerTime).bind fun s' hs' => ?_
      obtain ⟨d, w⟩ := s'
      obtain ⟨H', c', hc', hpos⟩ := hs'
      have hsize : d.mappingSize = P.toNat := Sound.mappingSize H'
      have hjc : w.journal.cursor = some c' := hc'
      obtain ⟨hpage, hge⟩ := H'.cursor c' hc'
      have hslot : c'.frame + frameHeaderSize + len.toNat ≤ P.toNat ∧
          (b = .checked ∨ c'.frame + frameHeaderSize + n + frameHeaderSize ≤ P.toNat) := by
        simp only [frameHeaderSize, pageHeaderSize] at *
        rcases hpos with hlt | ⟨hframe, hsw⟩
        · exact ⟨by omega, Or.inr (by omega)⟩
        · refine ⟨by omega, (hroom hsw).imp_right fun h => ?_⟩
          omega
      obtain ⟨m, hput, hopen, hlow, -⟩ := putHeader_ok P.toNat (d.mem c'.page) c'.frame
        (by omega) triggerTime msgType w.journal.location w.journal.dest
      have hhead := (H'.dir.header c'.page hpage).keep
        (hlow.mono (Set.Ico_subset_Ico_right (by omega)))
      simp only [cursor, hjc, bind, Except.bind, hsize, hput, post_ok]
      exact ⟨Sound.setMem (s := (d, w)) H' hhead, c', hjc, by simpa using hopen.headerLength, hslot⟩

theorem fillFrame_post {len n : ℕ} (H : InFrame P b len n s) {data : List UInt8}
    (hlen : data.length ≤ len) (as : Option (UInt32 × UInt32)) :
    Post (fillFrame data as s) (InFrame P b len n) Fault.inMapping := by
  obtain ⟨Hs, c, hc, hhl, hroom, hn⟩ := H
  obtain ⟨hpage, hge⟩ := Hs.cursor c hc
  have hsize := Sound.mappingSize Hs
  have hhead := Hs.dir.header c.page hpage
  simp only [frameHeaderSize] at hhl hroom
  -- any change behind the length fields of the slot
  have hdone : ∀ {m : Mem}, Set.EqOn m (s.1.mem c.page) (Set.Ico 0 (c.frame + 8)) →
      InFrame P b len n (s.1.setMem c.page m, s.2) := by
    intro m hm
    refine ⟨Sound.setMem Hs (hhead.keep (hm.mono (Set.Ico_subset_Ico_right (by omega)))), c, hc,
      ?_, hroom, hn⟩
    simp only [Dir.mem_setMem_same, frameHeaderSize]
    rw [← hhl]
    exact congrArg UInt32.toNat (Mem.get_eqOn hm (Nat.zero_le _) (by simp))
  have hstore : storeAt P.toNat (s.1.mem c.page) (c.frame + 36) data = .ok _ :=
    storeAt_ok _ (by omega)
  have heq : Set.EqOn ((s.1.mem c.page).store (c.frame + 36) data) (s.1.mem c.page)
      (Set.Ico 0 (c.frame + 8)) := Mem.eqOn_store _ _ (Or.inl (by omega))
  simp only [fillFrame, cursor, hc, bind, Except.bind, hsize, hhl, hstore]
  cases as with
  | none => exact hdone heq
  | some addr =>
      obtain ⟨source, dest⟩ := addr
      have hput : ∀ (m : Mem) (k : ℕ) (x : UInt32), k + 4 ≤ 36 →
          putAt P.toNat m (c.frame + k) x = .ok (m.put (c.frame + k) x) := fun m k x hk =>
        putAt_ok _ _ (by simp; omega)
      simp only [hput _ 28 source (by omega), hput _ 32 dest (by omega), post_ok]
      refine hdone (((Mem.eqOn_put _ _ (Or.inl (by omega))).trans ?_).trans heq)
      exact Mem.eqOn_put _ _ (Or.inl (by omega))

theorem closeFrame_post {len n : ℕ} (H : InFrame P b len n s) (hP : pageHeaderSize < P.toNat)
    (genTime : Int64) : Post (closeFrame b n genTime s) (Sound P) Fault.inMapping := by
  obtain ⟨Hs, c, hc, hhl, hroom, hn⟩ := H
  obtain ⟨hpage, hge⟩ := Hs.cursor c hc
  have hsize := Sound.mappingSize Hs
  have hhead := Hs.dir.header c.page hpage
  rw [closeFrame, cursor]
  refine (assertThat_post b _).bind fun _ _ => ?_
  simp only [hc, ok_bind, hsize, hhl]
  refine (assertThat_post b _).bind fun _ hborder => ?_
  -- the assertion, or the room that was there from the start
  have hfit : c.frame + frameHeaderSize + n + frameHeaderSize ≤ P.toNat := by
    rcases hn with hb | hle
    · have hlt := hborder hb
      rw [Page.addressBorder, hhead.pageSize] at hlt
      omega
    · exact hle
  simp only [frameHeaderSize] at hfit ⊢
  have hstore : storeAt P.toNat (s.1.mem c.page) (c.frame + 36 + n) (List.replicate 36 0) = .ok _ :=
    storeAt_ok _ (by simpa using hfit)
  have h₁ : HeaderSound P ((s.1.mem c.page).store (c.frame + 36 + n) (List.replicate 36 0)) :=
    hhead.keep (Mem.eqOn_store _ _ (Or.inl (by omega)))
  obtain ⟨m₂, hlen, hlow⟩ := putLength_keeps P.toNat
    ((s.1.mem c.page).store (c.frame + 36 + n) (List.replicate 36 0)) c.frame genTime n (by omega)
  have h₂ : HeaderSound P m₂ := h₁.keep (hlow.mono (Set.Ico_subset_Ico_right hge))
  obtain ⟨m₃, hlast, h₃⟩ := lastFrame_sound h₂ hge (by omega) hP
  simp only [hstore, ok_bind, hlen, hlast]
  exact onJournal_post (Journal.next_post (Sound.setMem Hs h₃) hP)

theorem copyFrame_post (H : Sound P s) (hP : pageHeaderSize < P.toNat) {src : Mem} {a : ℕ}
    (hsrc : frameHeaderSize ≤ (FrameHeader.frameLength src a).toNat)
    (hhl : (FrameHeader.headerLength src a).toNat = frameHeaderSize)
    (hmark : Switches s (FrameHeader.frameLength src a).toNat → MarkFits s)
    (hroom : Switches s (FrameHeader.frameLength src a).toNat →
      pageHeaderSize + (FrameHeader.frameLength src a).toNat + frameHeaderSize ≤ P.toNat)
    (triggerTime now : Int64) :
    Post (copyFrame b triggerTime now src a s) (Sound P) Fault.inMapping := by
  have hat := frameAt_read hhl hsrc
  rw [copyFrame, cursor]
  cases hc : s.2.journal.cursor with
  | none => simp [bind, Except.bind, Fault.inMapping]
  | some c =>
      refine (assertThat_post b _).bind fun _ _ => ?_
      refine (switchPage_post H hP hmark now triggerTime).bind fun s' hs' => ?_
      obtain ⟨d, w⟩ := s'
      obtain ⟨H', c', hc', hpos⟩ := hs'
      have hsize : d.mappingSize = P.toNat := Sound.mappingSize H'
      have hjc : w.journal.cursor = some c' := hc'
      obtain ⟨hpage, hge⟩ := H'.cursor c' hc'
      have hhead := H'.dir.header c'.page hpage
      rw [hat.frameLength] at *
      set f := Frame.read src a
      have hfl : f.length = 36 + f.data.length := rfl
      have hfit : c'.frame + f.length + 36 ≤ P.toNat := by
        simp only [frameHeaderSize, pageHeaderSize] at *
        rcases hpos with hlt | ⟨hframe, hsw⟩
        · omega
        · have := hroom hsw
          omega
      have hstore : storeAt P.toNat (d.mem c'.page) c'.frame (src.load a f.length) = .ok _ :=
        storeAt_ok _ (by simp; omega)
      have hframe : FrameAt ((d.mem c'.page).store c'.frame (src.load a f.length)) c'.frame f := by
        refine hat.congr fun i hi => ?_
        simp [Mem.store, Mem.load, hi]
      have hhl' := hframe.headerLength
      have hdl' := hframe.dataLength
      set m := (d.mem c'.page).store c'.frame (src.load a f.length)
      have hm : HeaderSound P m := hhead.keep (Mem.eqOn_store _ _ (Or.inl hge))
      have hstore' : storeAt P.toNat m (c'.frame + frameHeaderSize + f.data.length)
          (List.replicate frameHeaderSize 0) = .ok _ :=
        storeAt_ok _ (by simp [frameHeaderSize]; omega)
      have hm' : HeaderSound P
          (m.store (c'.frame + frameHeaderSize + f.data.length) (List.replicate frameHeaderSize 0)) :=
        hm.keep (Mem.eqOn_store _ _ (Or.inl (by omega)))
      obtain ⟨m₃, hlast, h₃⟩ := lastFrame_sound hm' hge (by omega) hP
      simp only [cursor, hjc, bind, Except.bind, hsize, hstore, hhl', hdl', hstore', hlast]
      exact onJournal_post (Journal.next_post (Sound.setMem (s := (d, w)) H' h₃) hP)

theorem make_post (H : d.Sound P) (hP : pageHeaderSize < P.toNat) (hash : Int64 → UInt32)
    (location dest : UInt32) (lazy : Bool) (startTime now : Int64) :
    Post (make hash location dest lazy startTime now d) (Sound P) Fault.inMapping :=
  onJournal_post (Journal.seekToTime_post ⟨H, fun _ hc => by simp [Journal.make] at hc⟩ hP now)

end Writer

/-! ## Histories -/

namespace Write

/-- The size checks of `open_frame` and `copy_frame` accept the write. -/
def Accepted (P : UInt32) : Write → Prop
  | record _ r => r.data.length ≤ r.length.toNat ∧
      frameHeaderSize + r.length.toNat + frameHeaderSize ≤ P.toNat
  | copy _ _ src a => (FrameHeader.headerLength src a).toNat = frameHeaderSize ∧
      frameHeaderSize ≤ (FrameHeader.frameLength src a).toNat ∧
      (FrameHeader.frameLength src a).toNat + frameHeaderSize ≤ P.toNat

/-- The bytes that the switch test asks for. -/
def asked : Write → ℕ
  | record _ r => frameHeaderSize + r.length.toNat
  | copy _ _ src a => (FrameHeader.frameLength src a).toNat

/-- The frame and the empty header after it fit an empty page; in a checked build
`close_frame` asserts it. -/
def RoomOnEmptyPage (P : UInt32) (b : Build) : Write → Prop
  | record _ r => b = .checked ∨
      pageHeaderSize + frameHeaderSize + r.data.length + frameHeaderSize ≤ P.toNat
  | copy _ _ src a =>
      pageHeaderSize + (FrameHeader.frameLength src a).toNat + frameHeaderSize ≤ P.toNat

/-- An accepted write that, if it switches the page, finds room for the end mark on the old
page and for its frame on the new one. -/
structure InBounds (P : UInt32) (b : Build) (s : Writer.State) (w : Write) : Prop where
  accepted : w.Accepted P
  mark : Writer.Switches s w.asked → Writer.MarkFits s
  room : Writer.Switches s w.asked → w.RoomOnEmptyPage P b

instance (P : UInt32) : (w : Write) → Decidable (w.Accepted P)
  | record _ _ => inferInstanceAs (Decidable (_ ∧ _))
  | copy _ _ _ _ => inferInstanceAs (Decidable (_ ∧ _ ∧ _))

instance (P : UInt32) (b : Build) : (w : Write) → Decidable (w.RoomOnEmptyPage P b)
  | record _ _ => inferInstanceAs (Decidable (_ ∨ _))
  | copy _ _ _ _ => inferInstanceAs (Decidable (_ ≤ _))

variable {b : Build} {s : Writer.State}

theorem run_post (H : Writer.Sound P s) (hP : pageHeaderSize < P.toNat) {w : Write}
    (hw : w.InBounds P b s) : Post (w.run b s) (Writer.Sound P) Fault.inMapping := by
  obtain ⟨haccept, hmark, hroom⟩ := hw
  cases w with
  | record now r =>
      obtain ⟨hlen, hsize⟩ := haccept
      refine (Writer.openFrame_post H hP hlen hsize hmark hroom now _ _).bind fun s₁ h₁ => ?_
      refine (Writer.fillFrame_post h₁ hlen r.as).bind fun s₂ h₂ => ?_
      exact Writer.closeFrame_post h₂ hP r.genTime
  | copy triggerTime now src a =>
      obtain ⟨hhead, hlen, -⟩ := haccept
      exact Writer.copyFrame_post H hP hlen hhead hmark hroom triggerTime now

/-- Every write of a sequence is in bounds in the state it starts from. -/
def AllInBounds (P : UInt32) (b : Build) : Writer.State → List Write → Prop
  | _, [] => True
  | s, w :: ws => w.InBounds P b s ∧ ∀ s', w.run b s = .ok s' → AllInBounds P b s' ws

theorem runAll_post (H : Writer.Sound P s) (hP : pageHeaderSize < P.toNat) {ws : List Write}
    (hws : AllInBounds P b s ws) : Post (runAll b s ws) (Writer.Sound P) Fault.inMapping := by
  induction ws generalizing s with
  | nil => exact H
  | cons w ws ih =>
      have hrun := run_post H hP hws.1
      rw [runAll, List.foldlM_cons]
      cases hx : w.run b s with
      | ok s' => exact ih (hrun.of_ok hx) (hws.2 s' hx)
      | error fault => exact hrun.of_error hx

end Write

namespace Incarnation

variable {hash : Int64 → UInt32} {b : Build} {location dest : UInt32}

/-- Every write of an incarnation is in bounds, the frame it leaves open included. -/
def InBounds (hash : Int64 → UInt32) (b : Build) (location dest P : UInt32) (d : Dir)
    (i : Incarnation) : Prop :=
  ∀ s, Writer.make hash location dest i.lazy i.startTime i.now d = .ok s →
    Write.AllInBounds P b s i.writes ∧
    ∀ s', Write.runAll b s i.writes = .ok s' → ∀ now r, i.opened = some (now, r) →
      (Write.record now r).InBounds P b s'

/-- Every incarnation of a history is in bounds in the directory it finds. -/
def AllInBounds (hash : Int64 → UInt32) (b : Build) (location dest P : UInt32) (d : Dir) :
    List Incarnation → Prop
  | [] => True
  | i :: is => i.InBounds hash b location dest P d ∧
      ∀ d', i.run hash b location dest d = .ok d' → AllInBounds hash b location dest P d' is

theorem run_post (H : d.Sound P) (hP : pageHeaderSize < P.toNat) {i : Incarnation}
    (hi : i.InBounds hash b location dest P d) :
    Post (i.run hash b location dest d) (Dir.Sound · P) Fault.inMapping := by
  have hmake := Writer.make_post H hP hash location dest i.lazy i.startTime i.now
  rw [run]
  cases hx : Writer.make hash location dest i.lazy i.startTime i.now d with
  | error fault => exact hmake.of_error hx
  | ok s =>
      obtain ⟨hwrites, hopened⟩ := hi s hx
      have hrun := Write.runAll_post (hmake.of_ok hx) hP hwrites
      rw [ok_bind]
      cases hy : Write.runAll b s i.writes with
      | error fault => exact hrun.of_error hy
      | ok s' =>
          have H' : Writer.Sound P s' := hrun.of_ok hy
          rw [ok_bind]
          cases ho : i.opened with
          | none => exact H'.dir
          | some p =>
              obtain ⟨now, r⟩ := p
              obtain ⟨⟨hlen, hsize⟩, hmark, hroom⟩ := hopened s' hy now r ho
              refine (Writer.openFrame_post H' hP hlen hsize hmark hroom now _ _).bind fun s₁ h₁ => ?_
              exact (Writer.fillFrame_post h₁ hlen r.as).bind fun s₂ h₂ => h₂.sound.dir

end Incarnation

/-- A history of any writers, also of writers that overwrite frames, never stores past the
mapping of a page as long as every write that switches the page finds room for the end
mark on the old page and for its frame and an empty header on the new one. -/
theorem runAll_inBounds {hash : Int64 → UInt32} {b : Build} {location dest : UInt32}
    (hP : pageHeaderSize < P.toNat) {is : List Incarnation}
    (his : Incarnation.AllInBounds hash b location dest P (Dir.empty P) is) :
    Incarnation.runAll hash b location dest (Dir.empty P) is ≠ .error .outOfMapping := by
  have hrun : ∀ (is : List Incarnation) (d : Dir), d.Sound P →
      Incarnation.AllInBounds hash b location dest P d is →
      Post (Incarnation.runAll hash b location dest d is) (Dir.Sound · P) Fault.inMapping := by
    intro is
    induction is with
    | nil => exact fun d H _ => H
    | cons i is ih =>
        intro d H his
        have hstep := Incarnation.run_post H hP his.1
        rw [Incarnation.runAll, List.foldlM_cons]
        cases hx : i.run hash b location dest d with
        | ok d' => exact ih d' (hstep.of_ok hx) (his.2 d' hx)
        | error fault => exact hstep.of_error hx
  have hempty : (Dir.empty P).Sound P := ⟨rfl, fun id hid => absurd hid List.not_mem_nil⟩
  intro herror
  exact (hrun is _ hempty his).of_error herror rfl

theorem runAll_inBounds_switch :
    Incarnation.runAll (fun _ => 0) .release 1 2 (Dir.empty 200) [.twoPages 10] ≠
      .error .outOfMapping := by
  have hmake : okAnd (Writer.make (fun _ => 0) 1 2 false 10 10 (Dir.empty 200)) (fun s =>
      decide (Writer.MarkFits s) &&
      okAnd ((Write.record 10 ⟨0, 7, 3, [1, 2, 3], none, 10⟩).run .release s) fun s' =>
        decide (Writer.Switches s' 116 ∧ Writer.MarkFits s')) = true := by decide +kernel
  obtain ⟨s, hs, hafter⟩ := exists_of_okAnd hmake
  obtain ⟨hmark, hrun⟩ := Bool.and_eq_true_iff.mp hafter
  obtain ⟨s', hs', hswitch⟩ := exists_of_okAnd hrun
  refine runAll_inBounds (by decide) ⟨fun t ht => ?_, fun _ _ => trivial⟩
  obtain rfl : s = t := Except.ok.inj (hs.symm.trans ht)
  refine ⟨⟨⟨by decide, fun _ => of_decide_eq_true hmark, fun _ => by decide⟩, fun t ht => ?_⟩,
    fun _ _ _ _ h => by simp [Incarnation.twoPages] at h⟩
  obtain rfl : s' = t := Except.ok.inj (hs'.symm.trans ht)
  -- the second write switches the page
  have hmark' := (of_decide_eq_true hswitch).2
  exact ⟨⟨by decide, fun _ => hmark', fun _ => by decide⟩, fun _ _ => trivial⟩

/-- A source frame with 128 bytes of data. -/
def largeFrame : Mem :=
  ((Mem.put (fun _ => 0) 0 (164 : UInt32)).put 4 (36 : UInt32)).put 24 (7 : Int32)

/-- On pages of 200 bytes a copied frame of 164 bytes is accepted and fits a page by itself,
but not behind the page header: the empty header after it is stored past the mapping.  In a
release build `open_frame` and `close_frame` do the same. -/
theorem writes_leave_page :
    (Write.copy 20 20 largeFrame 0).Accepted 200 ∧
    (∃ s, Writer.make (fun _ => 0) 1 2 false 10 10 (Dir.empty 200) = .ok s ∧
      (Write.copy 20 20 largeFrame 0).run .checked s = .error .outOfMapping) ∧
    (Write.record 20 ⟨0, 7, 128, List.replicate 128 0, none, 20⟩).Accepted 200 ∧
    (∃ s, Writer.make (fun _ => 0) 1 2 false 10 10 (Dir.empty 200) = .ok s ∧
      (Write.record 20 ⟨0, 7, 128, List.replicate 128 0, none, 20⟩).run .release s =
        .error .outOfMapping) := by
  have hcopy : okAnd (Writer.make (fun _ => 0) 1 2 false 10 10 (Dir.empty 200)) (fun s =>
      faults .outOfMapping ((Write.copy 20 20 largeFrame 0).run .checked s)) = true := by
    decide +kernel
  have hrecord : okAnd (Writer.make (fun _ => 0) 1 2 false 10 10 (Dir.empty 200)) (fun s =>
      faults .outOfMapping ((Write.record 20 ⟨0, 7, 128, List.replicate 128 0, none, 20⟩).run
        .release s)) = true := by
    decide +kernel
  obtain ⟨s, hs, hfault⟩ := exists_of_okAnd hcopy
  obtain ⟨s', hs', hfault'⟩ := exists_of_okAnd hrecord
  exact ⟨by decide +kernel, ⟨s, hs, eq_error_of_faults hfault⟩, by decide +kernel,
    ⟨s', hs', eq_error_of_faults hfault'⟩⟩

end Kungfu.Yijinjing
