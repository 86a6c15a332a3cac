import Kungfu.Logic.Run
import Mathlib.Logic.Function.Basic

/-!
# The shared clock anchor

Processes agree on the time by a record in a file: a pair of what the wall clock and the steady
clock showed at one moment.  A process that finds a record it can use continues from it, and
any other one takes a pair of its own and publishes it, by writing it to a temporary file that
it renames.  The steady clock starts anew when the machine boots.
-/

namespace Kungfu.Yijinjing

open Logic

/-- `time_point_info`: a reading of both clocks, and the boot in which it was taken, which no
process knows. -/
structure TimePointInfo where
  boot : ℕ
  systemClockCount : Int64
  steadyClockCount : Int64
  deriving DecidableEq, Repr

/-- By how much the wall clock is ahead of the steady clock. -/
def TimePointInfo.offset (base : TimePointInfo) : Int64 :=
  base.systemClockCount - base.steadyClockCount

/-- A record can be used if both counts are positive and the steady clock is not behind it. -/
def TimePointInfo.Usable (record : TimePointInfo) (currentSteady : Int64) : Prop :=
  0 < record.systemClockCount ∧ 0 < record.steadyClockCount ∧
    record.steadyClockCount ≤ currentSteady

instance (record : TimePointInfo) (currentSteady : Int64) :
    Decidable (record.Usable currentSteady) :=
  inferInstanceAs (Decidable (_ ∧ _))

/-- The base that a process takes over from a record. -/
def TimePointInfo.continued (record : TimePointInfo) (currentSteady : Int64) : TimePointInfo where
  boot := record.boot
  systemClockCount := record.systemClockCount + (currentSteady - record.steadyClockCount)
  steadyClockCount := currentSteady

theorem TimePointInfo.offset_continued (record : TimePointInfo) (currentSteady : Int64) :
    (record.continued currentSteady).offset = record.offset := by
  simp only [offset, continued]
  grind

/-- Where a process is in `adopt_shared_anchor`. -/
inductive Phase
  | looking
  | opened (inode : ℕ)
  | read (record : Option TimePointInfo)
  | sampling
  | creating (base : TimePointInfo)
  | writing (base : TimePointInfo) (inode : ℕ)
  | moving (base : TimePointInfo)
  | removing (base : TimePointInfo)
  | retrying (base : TimePointInfo)
  | finished (base : TimePointInfo)
  deriving DecidableEq, Repr

/-- The process found no record that it can use, and is not done yet. -/
def Phase.Publishing : Phase → Prop
  | looking | opened _ | read _ | finished _ => False
  | sampling | creating _ | writing _ _ | moving _ | removing _ | retrying _ => True

instance : DecidablePred Phase.Publishing
  | .looking | .opened _ | .read _ | .finished _ => isFalse id
  | .sampling | .creating _ | .writing _ _ | .moving _ | .removing _ | .retrying _ =>
      isTrue trivial

/-- A machine: its steady clock, the anchor file and the temporary file next to it, by inode,
and its processes since it booted.  An inode without a record is empty. -/
structure Host where
  boot : ℕ
  steady : Int64
  nextInode : ℕ
  contents : ℕ → Option TimePointInfo
  file : Option ℕ
  tmp : Option ℕ
  processes : ℕ → Option Phase

namespace Host

inductive Step
  | start (process : ℕ)
  /-- A process goes on; the wall clock shows `system`. -/
  | go (process : ℕ) (system : Int64)
  | kill (process : ℕ)
  | tick (steady : Int64)
  | reboot (steady : Int64)

/-- A machine on which no process has run. -/
def fresh (steady : Int64) : Host where
  boot := 0
  steady := steady
  nextInode := 0
  contents _ := none
  file := none
  tmp := none
  processes _ := none

def enter (h : Host) (process : ℕ) (phase : Phase) : Host :=
  { h with processes := Function.update h.processes process (some phase) }

/-- The temporary file is made, or emptied. -/
def truncate (h : Host) : ℕ × Host :=
  match h.tmp with
  | some inode => (inode, { h with contents := Function.update h.contents inode none })
  | none => (h.nextInode, { h with
      nextInode := h.nextInode + 1
      contents := Function.update h.contents h.nextInode none
      tmp := some h.nextInode })

/-- `fs::rename`, which on some systems does not replace a file. -/
def rename (replaces : Bool) (h : Host) : Option Host :=
  match h.tmp with
  | none => none
  | some inode =>
      if replaces ∨ h.file = none then some { h with file := some inode, tmp := none } else none

/-- What a process does next in `adopt_shared_anchor`. -/
def go (replaces : Bool) (process : ℕ) (system : Int64) (h : Host) : Phase → Host
  | .looking =>
      match h.file with
      | none => h.enter process .sampling
      | some inode => h.enter process (.opened inode)
  | .opened inode => h.enter process (.read (h.contents inode))
  | .read none => h.enter process .sampling
  | .read (some record) =>
      if record.Usable h.steady then h.enter process (.finished (record.continued h.steady))
      else h.enter process .sampling
  | .sampling => h.enter process (.creating ⟨h.boot, system, h.steady⟩)
  | .creating base => h.truncate.2.enter process (.writing base h.truncate.1)
  | .writing base inode =>
      { h with contents := Function.update h.contents inode (some base) }.enter process
        (.moving base)
  | .moving base =>
      match h.rename replaces with
      | some h => h.enter process (.finished base)
      | none => h.enter process (.removing base)
  | .removing base => { h with file := none }.enter process (.retrying base)
  | .retrying base => ((h.rename replaces).getD h).enter process (.finished base)
  | .finished _ => h

/-- A process that is killed is gone, but what it was done with has been used. -/
def step (replaces : Bool) (h : Host) : Step → Host
  | .start process => if (h.processes process).isSome then h else h.enter process .looking
  | .go process system => (h.processes process).elim h (go replaces process system h)
  | .kill process =>
      match h.processes process with
      | some (.finished _) => h
      | _ => { h with processes := Function.update h.processes process none }
  | .tick steady => if h.steady ≤ steady then { h with steady := steady } else h
  | .reboot steady => { h with boot := h.boot + 1, steady := steady, processes := fun _ => none }

def run (replaces : Bool) (h : Host) (steps : List Step) : Host := steps.foldl (step replaces) h

/-- Nobody has an anchor in this boot or is about to publish one. -/
def Unanchored (h : Host) : Prop :=
  ∀ p phase, h.processes p = some phase → ¬ phase.Publishing ∧ ∀ base, phase ≠ .finished base

/-- A process that goes on adopts no record of another boot, and finds no record that it can
use only as long as nobody has an anchor or is about to publish one. -/
def Safe (h : Host) : Step → Prop
  | .go process _ =>
      match h.processes process with
      | some .looking => h.file = none → h.Unanchored
      | some (.read none) => h.Unanchored
      | some (.read (some record)) =>
          if record.Usable h.steady then record.boot = h.boot else h.Unanchored
      | _ => True
  | .start _ | .kill _ | .tick _ | .reboot _ => True

/-! ## Files -/

variable {replaces : Bool} {h h' : Host}

/-- A record that a process may come to use: it is in the anchor file or in a file that was
opened, or was read. -/
def Readable (h : Host) (record : TimePointInfo) : Prop :=
  (∃ inode, (h.file = some inode ∨ ∃ p, h.processes p = some (.opened inode)) ∧
    h.contents inode = some record) ∨ ∃ p, h.processes p = some (.read (some record))

/-- No record is from a later boot, and the temporary file is neither the anchor file nor one
that was opened. -/
structure FilesApart (h : Host) : Prop where
  boot : ∀ inode record, h.contents inode = some record → record.boot ≤ h.boot
  file : ∀ inode, h.file = some inode → inode < h.nextInode
  opened : ∀ p inode, h.processes p = some (.opened inode) → inode < h.nextInode
  tmp : ∀ inode, h.tmp = some inode → inode < h.nextInode ∧ h.file ≠ some inode ∧
    ∀ p, h.processes p ≠ some (.opened inode)

@[simp] theorem processes_enter_self (h : Host) (p : ℕ) (phase : Phase) :
    (h.enter p phase).processes p = some phase := by simp [enter]

theorem processes_enter_of_ne (h : Host) {p q : ℕ} (phase : Phase) (hne : q ≠ p) :
    (h.enter p phase).processes q = h.processes q := by simp [enter, hne]

/-- A process in the state after is the one that went on, or was there before. -/
theorem processes_enter {p q : ℕ} {phase phase' : Phase}
    (hq : (h.enter p phase).processes q = some phase') :
    q = p ∧ phase' = phase ∨ q ≠ p ∧ h.processes q = some phase' := by
  rcases eq_or_ne q p with rfl | hne
  · rw [processes_enter_self] at hq
    exact .inl ⟨rfl, (Option.some.inj hq).symm⟩
  · rw [processes_enter_of_ne h phase hne] at hq
    exact .inr ⟨hne, hq⟩

/-- What can be read after a process went on could be read before, or the process has just
opened the file or read it. -/
theorem Readable.of_enter {p : ℕ} {phase : Phase} {record : TimePointInfo}
    (hread : (h.enter p phase).Readable record) :
    h.Readable record ∨ (∃ inode, phase = .opened inode ∧ h.contents inode = some record) ∨
      phase = .read (some record) := by
  rcases hread with ⟨inode, hfile | ⟨q, hq⟩, hcontents⟩ | ⟨q, hq⟩
  · exact .inl (.inl ⟨inode, .inl hfile, hcontents⟩)
  · rcases processes_enter hq with ⟨-, hphase⟩ | ⟨-, hq⟩
    · exact .inr (.inl ⟨inode, hphase.symm, hcontents⟩)
    · exact .inl (.inl ⟨inode, .inr ⟨q, hq⟩, hcontents⟩)
  · rcases processes_enter hq with ⟨-, hphase⟩ | ⟨-, hq⟩
    · exact .inr (.inr hphase.symm)
    · exact .inl (.inr ⟨q, hq⟩)

theorem FilesApart.enter (hfiles : h.FilesApart) (p : ℕ) {phase : Phase}
    (hphase : ∀ inode, phase = .opened inode → h.file = some inode) :
    (h.enter p phase).FilesApart := by
  refine ⟨hfiles.boot, hfiles.file, ?_, ?_⟩
  · intro q inode hq
    rcases processes_enter hq with ⟨-, rfl⟩ | ⟨-, hq⟩
    · exact hfiles.file inode (hphase inode rfl)
    · exact hfiles.opened q inode hq
  · intro inode htmp
    obtain ⟨hlt, hfile, hopened⟩ := hfiles.tmp inode htmp
    refine ⟨hlt, hfile, fun q hq => ?_⟩
    rcases processes_enter hq with ⟨-, hphase'⟩ | ⟨-, hq⟩
    · exact hfile (hphase inode hphase'.symm)
    · exact hopened q hq

/-- The temporary file is the one that was made or emptied; everything else is as before. -/
theorem truncate_spec (h : Host) :
    h.truncate.2.tmp = some h.truncate.1 ∧ h.truncate.2.file = h.file ∧
      h.truncate.2.processes = h.processes ∧ h.truncate.2.boot = h.boot ∧
      h.truncate.2.contents = Function.update h.contents h.truncate.1 none := by
  unfold truncate
  split
  · rename_i inode htmp
    exact ⟨htmp, rfl, rfl, rfl, rfl⟩
  · exact ⟨rfl, rfl, rfl, rfl, rfl⟩

theorem contents_of_truncate {inode : ℕ} {record : TimePointInfo}
    (hcontents : h.truncate.2.contents inode = some record) : h.contents inode = some record := by
  obtain ⟨-, -, -, -, hupdate⟩ := truncate_spec h
  rw [hupdate, Function.update_apply] at hcontents
  split at hcontents
  · cases hcontents
  · exact hcontents

theorem Readable.of_truncate {record : TimePointInfo} (hread : h.truncate.2.Readable record) :
    h.Readable record := by
  obtain ⟨-, hfile, hprocesses, -, -⟩ := truncate_spec h
  rw [Readable, hfile, hprocesses] at hread
  rcases hread with ⟨inode, hinode, hcontents⟩ | hread
  · exact .inl ⟨inode, hinode, contents_of_truncate hcontents⟩
  · exact .inr hread

theorem FilesApart.truncate (hfiles : h.FilesApart) : h.truncate.2.FilesApart := by
  obtain ⟨-, -, -, hboot, -⟩ := truncate_spec h
  have hboot' : ∀ inode record, h.truncate.2.contents inode = some record →
      record.boot ≤ h.truncate.2.boot := by
    intro inode record hcontents
    rw [hboot]
    exact hfiles.boot inode record (contents_of_truncate hcontents)
  cases htmp : h.tmp with
  | some inode =>
    have htruncate : h.truncate.2 =
        { h with contents := Function.update h.contents inode none } := by simp [Host.truncate, htmp]
    rw [htruncate] at hboot' ⊢
    exact ⟨hboot', hfiles.file, hfiles.opened, hfiles.tmp⟩
  | none =>
    have htruncate : h.truncate.2 = { h with
        nextInode := h.nextInode + 1
        contents := Function.update h.contents h.nextInode none
        tmp := some h.nextInode } := by simp [Host.truncate, htmp]
    rw [htruncate] at hboot' ⊢
    refine ⟨hboot', ?_, ?_, ?_⟩
    · exact fun inode hinode => Nat.lt_succ_of_lt (hfiles.file inode hinode)
    · exact fun q inode hq => Nat.lt_succ_of_lt (hfiles.opened q inode hq)
    · intro inode hinode
      cases hinode
      exact ⟨Nat.lt_succ_self _, fun hfile => Nat.lt_irrefl _ (hfiles.file _ hfile),
        fun q hq => Nat.lt_irrefl _ (hfiles.opened q _ hq)⟩

theorem exists_of_rename (hrename : h.rename replaces = some h') :
    ∃ inode, h.tmp = some inode ∧ h' = { h with file := some inode, tmp := none } := by
  unfold rename at hrename
  split at hrename
  · cases hrename
  · rename_i inode htmp
    split at hrename
    · exact ⟨inode, htmp, (Option.some.inj hrename).symm⟩
    · cases hrename

theorem FilesApart.rename (hfiles : h.FilesApart) (hrename : h.rename replaces = some h') :
    h'.FilesApart := by
  obtain ⟨inode, htmp, rfl⟩ := exists_of_rename hrename
  refine ⟨hfiles.boot, ?_, hfiles.opened, nofun⟩
  intro inode' hfile
  cases hfile
  exact (hfiles.tmp inode htmp).1

/-- A record is written to the temporary file. -/
theorem FilesApart.write (hfiles : h.FilesApart) {base : TimePointInfo} (hboot : base.boot = h.boot)
    (inode : ℕ) :
    FilesApart { h with contents := Function.update h.contents inode (some base) } := by
  refine ⟨?_, hfiles.file, hfiles.opened, hfiles.tmp⟩
  intro inode' record hcontents
  simp only [Function.update_apply] at hcontents
  split at hcontents
  · cases hcontents
    exact Nat.le_of_eq hboot
  · exact hfiles.boot inode' record hcontents

/-- Nobody can read what is written to the temporary file. -/
theorem FilesApart.readable_of_write (hfiles : h.FilesApart) {base record : TimePointInfo}
    {inode : ℕ} (htmp : h.tmp = some inode)
    (hread : Readable { h with contents := Function.update h.contents inode (some base) } record) :
    h.Readable record := by
  obtain ⟨-, hfile, hopened⟩ := hfiles.tmp inode htmp
  rcases hread with ⟨inode', hinode, hcontents⟩ | hread
  · have hne : inode' ≠ inode := by
      rintro rfl
      rcases hinode with hinode | ⟨q, hq⟩
      · exact hfile hinode
      · exact hopened q hq
    exact .inl ⟨inode', hinode, by rwa [← Function.update_of_ne hne (some base) h.contents]⟩
  · exact .inr hread

/-! ## Agreement -/

/-- What a process that publishes its own pair has to do with the temporary file. -/
def Owns (h : Host) : Phase → Prop
  | .looking | .opened _ | .read _ | .sampling | .finished _ => True
  | .creating base => base.boot = h.boot
  | .writing base inode => base.boot = h.boot ∧ h.tmp = some inode
  | .moving base | .removing base | .retrying base =>
      base.boot = h.boot ∧ ∃ inode, h.tmp = some inode ∧ h.contents inode = some base

/-- Nobody is done in this boot, and at most one process is about to publish its pair. -/
structure Unsettled (h : Host) : Prop where
  unfinished : ∀ p base, h.processes p ≠ some (.finished base)
  readable : ∀ record, h.Readable record → record.boot ≠ h.boot
  unique : ∀ p q phase phase', h.processes p = some phase → h.processes q = some phase' →
    phase.Publishing → phase'.Publishing → p = q
  owns : ∀ p phase, h.processes p = some phase → h.Owns phase

/-- The boot has its offset, which everybody who is done uses and everybody can read. -/
structure Settled (offset : Int64) (h : Host) : Prop where
  exists_finished : ∃ p base, h.processes p = some (.finished base)
  idle : ∀ p phase, h.processes p = some phase → ¬ phase.Publishing
  finished : ∀ p base, h.processes p = some (.finished base) →
    base.offset = offset ∧ base.boot = h.boot
  readable : ∀ record, h.Readable record → record.boot = h.boot → record.offset = offset

theorem owns_of_not_publishing {phase : Phase} (hphase : ¬ phase.Publishing) : h.Owns phase := by
  cases phase <;> first | trivial | exact absurd trivial hphase

/-- A process goes on while nobody is done. -/
theorem Unsettled.enter (hopen : h.Unsettled) {p : ℕ} {phase : Phase}
    (hphase : ∀ base, phase ≠ .finished base)
    (hread : ∀ record, (h.enter p phase).Readable record → h.Readable record)
    (hunique : phase.Publishing → ∀ q phase', q ≠ p → h.processes q = some phase' →
      ¬ phase'.Publishing)
    (howns : h.Owns phase) : (h.enter p phase).Unsettled := by
  refine ⟨?_, fun record hrecord => hopen.readable record (hread record hrecord), ?_, ?_⟩
  · intro q base hq
    rcases processes_enter hq with ⟨-, hfinished⟩ | ⟨-, hq⟩
    · exact hphase base hfinished.symm
    · exact hopen.unfinished q base hq
  · intro q r phase₁ phase₂ hq hr hpublishes hpublishes'
    rcases processes_enter hq with ⟨hqp, hphase₁⟩ | ⟨hne, hq₀⟩ <;>
      rcases processes_enter hr with ⟨hrp, hphase₂⟩ | ⟨hne', hr₀⟩
    · rw [hqp, hrp]
    · exact absurd hpublishes' (hunique (hphase₁ ▸ hpublishes) r phase₂ hne' hr₀)
    · exact absurd hpublishes (hunique (hphase₂ ▸ hpublishes') q phase₁ hne hq₀)
    · exact hopen.unique q r phase₁ phase₂ hq₀ hr₀ hpublishes hpublishes'
  · intro q phase' hq
    rcases processes_enter hq with ⟨-, rfl⟩ | ⟨-, hq⟩
    · exact howns
    · exact hopen.owns q phase' hq

/-- The process that is about to publish changes the temporary file. -/
theorem Unsettled.of_files (hopen : h.Unsettled) (hprocesses : h'.processes = h.processes)
    (hboot : h'.boot = h.boot) (hread : ∀ record, h'.Readable record → h.Readable record)
    {p : ℕ} {phase : Phase} (hp : h.processes p = some phase) (hphase : phase.Publishing)
    (howns : h'.Owns phase) : h'.Unsettled := by
  refine ⟨?_, ?_, ?_, ?_⟩
  · rw [hprocesses]
    exact hopen.unfinished
  · intro record hrecord
    rw [hboot]
    exact hopen.readable record (hread record hrecord)
  · rw [hprocesses]
    exact hopen.unique
  · intro q phase' hq
    rw [hprocesses] at hq
    by_cases hpublishes : phase'.Publishing
    · obtain rfl := hopen.unique p q phase phase' hp hq hphase hpublishes
      cases hp.symm.trans hq
      exact howns
    · exact owns_of_not_publishing hpublishes

/-- A process goes on after the offset was settled. -/
theorem Settled.enter {offset : Int64} (hsettled : h.Settled offset) {p : ℕ} {phase : Phase}
    (hp : ∀ base, h.processes p ≠ some (.finished base)) (hphase : ¬ phase.Publishing)
    (hfinished : ∀ base, phase = .finished base → base.offset = offset ∧ base.boot = h.boot)
    (hread : ∀ record, (h.enter p phase).Readable record → h.Readable record) :
    (h.enter p phase).Settled offset := by
  refine ⟨?_, ?_, ?_, fun record hrecord => hsettled.readable record (hread record hrecord)⟩
  · obtain ⟨q, base, hq⟩ := hsettled.exists_finished
    have hne : q ≠ p := by
      rintro rfl
      exact hp base hq
    exact ⟨q, base, by rwa [processes_enter_of_ne h phase hne]⟩
  · intro q phase' hq
    rcases processes_enter hq with ⟨-, rfl⟩ | ⟨-, hq⟩
    · exact hphase
    · exact hsettled.idle q phase' hq
  · intro q base hq
    rcases processes_enter hq with ⟨-, hbase⟩ | ⟨-, hq⟩
    · exact hfinished base hbase.symm
    · exact hsettled.finished q base hq

/-- The process that publishes settles the offset when it is done. -/
theorem Unsettled.finish (hopen : h.Unsettled) {p : ℕ} {phase : Phase} {base : TimePointInfo}
    (hp : h.processes p = some phase) (hphase : phase.Publishing) (hbase : base.boot = h.boot)
    (hprocesses : h'.processes = h.processes) (hboot : h'.boot = h.boot)
    (hread : ∀ record, h'.Readable record → h.Readable record ∨ record = base) :
    (h'.enter p (.finished base)).Settled base.offset := by
  refine ⟨⟨p, base, processes_enter_self ..⟩, ?_, ?_, ?_⟩
  · intro q phase' hq hpublishes
    rcases processes_enter hq with ⟨-, rfl⟩ | ⟨hne, hq⟩
    · exact hpublishes
    · rw [hprocesses] at hq
      exact hne (hopen.unique q p phase' phase hq hp hpublishes hphase)
  · intro q base' hq
    rcases processes_enter hq with ⟨-, hsame⟩ | ⟨-, hq⟩
    · cases hsame
      exact ⟨rfl, hbase.trans hboot.symm⟩
    · rw [hprocesses] at hq
      exact absurd hq (hopen.unfinished q base')
  · intro record hrecord hcurrent
    rcases hrecord.of_enter with hrecord | ⟨inode, hopened, -⟩ | hread'
    · rcases hread record hrecord with hrecord | rfl
      · exact absurd (hcurrent.trans hboot) (hopen.readable record hrecord)
      · rfl
    · cases hopened
    · cases hread'

/-- The files are apart, and the offset of the boot is open or settled. -/
structure Consistent (h : Host) : Prop where
  files : h.FilesApart
  settled : h.Unsettled ∨ ∃ offset, h.Settled offset

theorem consistent_fresh (steady : Int64) : (fresh steady).Consistent where
  files := ⟨nofun, nofun, nofun, nofun⟩
  settled := by
    refine .inl ⟨nofun, ?_, nofun, nofun⟩
    rintro record (⟨inode, -, hcontents⟩ | ⟨p, hp⟩)
    · cases hcontents
    · cases hp

/-- As long as nobody has an anchor, the offset is open. -/
theorem Consistent.unsettled (hh : h.Consistent) (hunanchored : h.Unanchored) : h.Unsettled := by
  rcases hh.settled with hopen | ⟨offset, hsettled⟩
  · exact hopen
  · obtain ⟨p, base, hp⟩ := hsettled.exists_finished
    exact absurd rfl ((hunanchored p _ hp).2 base)

/-- While a process is about to publish its pair, the offset is open. -/
theorem Consistent.unsettled_of_publishing (hh : h.Consistent) {p : ℕ} {phase : Phase}
    (hp : h.processes p = some phase) (hphase : phase.Publishing) : h.Unsettled := by
  rcases hh.settled with hopen | ⟨offset, hsettled⟩
  · exact hopen
  · exact absurd hphase (hsettled.idle p phase hp)

/-- A process goes on that neither publishes nor is done. -/
theorem Consistent.enter (hh : h.Consistent) {p : ℕ} {phase : Phase}
    (hp : ∀ base, h.processes p ≠ some (.finished base)) (hphase : ¬ phase.Publishing)
    (hfinished : ∀ base, phase ≠ .finished base)
    (hopened : ∀ inode, phase = .opened inode → h.file = some inode)
    (hread : ∀ record, (h.enter p phase).Readable record → h.Readable record) :
    (h.enter p phase).Consistent := by
  refine ⟨hh.files.enter p hopened, ?_⟩
  rcases hh.settled with hopen | ⟨offset, hsettled⟩
  · exact .inl (hopen.enter hfinished hread (fun h => absurd h hphase)
      (owns_of_not_publishing hphase))
  · exact .inr ⟨offset, hsettled.enter hp hphase (fun base h => absurd h (hfinished base)) hread⟩

/-- A process that finds no usable record goes on to take a pair of its own. -/
theorem Consistent.sample (hh : h.Consistent) (p : ℕ) (hunanchored : h.Unanchored) :
    (h.enter p .sampling).Consistent := by
  refine ⟨hh.files.enter p nofun, .inl ?_⟩
  apply (hh.unsettled hunanchored).enter (fun base h => by cases h)
  · intro record hrecord
    rcases hrecord.of_enter with hrecord | ⟨inode, hopened, -⟩ | hread
    · exact hrecord
    · cases hopened
    · cases hread
  · intro _ q phase _ hq
    exact (hunanchored q phase hq).1
  · trivial

/-- A process that publishes goes on, once the files are as its next phase needs them. -/
theorem Consistent.publish (hh : h.Consistent) {p : ℕ} {phase phase' : Phase}
    (hp : h.processes p = some phase) (hphase : phase.Publishing) (hphase' : phase'.Publishing)
    (hprocesses : h'.processes = h.processes) (hboot : h'.boot = h.boot) (hfiles : h'.FilesApart)
    (hread : ∀ record, h'.Readable record → h.Readable record) (howns : h'.Owns phase)
    (howns' : h'.Owns phase') : (h'.enter p phase').Consistent := by
  have hopen := (hh.unsettled_of_publishing hp hphase).of_files hprocesses hboot hread hp hphase howns
  refine ⟨hfiles.enter p ?_, .inl (hopen.enter ?_ ?_ ?_ howns')⟩
  · rintro inode rfl
    exact absurd hphase' id
  · rintro base rfl
    exact absurd hphase' id
  · intro record hrecord
    rcases hrecord.of_enter with hrecord | ⟨inode, rfl, -⟩ | rfl
    · exact hrecord
    · exact absurd hphase' id
    · exact absurd hphase' id
  · intro _ q phase₂ hne hq hpublishes
    rw [hprocesses] at hq
    exact hne ((hh.unsettled_of_publishing hp hphase).unique q p phase₂ phase hq hp hpublishes hphase)

/-- A process that publishes is done. -/
theorem Consistent.finish (hh : h.Consistent) {p : ℕ} {phase : Phase} {base : TimePointInfo}
    (hp : h.processes p = some phase) (hphase : phase.Publishing) (hbase : base.boot = h.boot)
    (hprocesses : h'.processes = h.processes) (hboot : h'.boot = h.boot) (hfiles : h'.FilesApart)
    (hread : ∀ record, h'.Readable record → h.Readable record ∨ record = base) :
    (h'.enter p (.finished base)).Consistent :=
  ⟨hfiles.enter p (fun inode h => by cases h), .inr ⟨base.offset,
    (hh.unsettled_of_publishing hp hphase).finish hp hphase hbase hprocesses hboot hread⟩⟩

/-- It is done when its temporary file has become the anchor file. -/
theorem Consistent.finish_rename (hh : h.Consistent) {p inode : ℕ} {phase : Phase}
    {base : TimePointInfo} (hp : h.processes p = some phase) (hphase : phase.Publishing)
    (hbase : base.boot = h.boot) (htmp : h.tmp = some inode)
    (hcontents : h.contents inode = some base) (hrename : h.rename replaces = some h') :
    (h'.enter p (.finished base)).Consistent := by
  have hfiles := hh.files.rename hrename
  obtain ⟨inode', htmp', hh'⟩ := exists_of_rename hrename
  cases htmp.symm.trans htmp'
  apply hh.finish hp hphase hbase (by rw [hh']) (by rw [hh']) hfiles
  rw [hh']
  rintro record (⟨inode', hfile | hopened, hrecord⟩ | hread)
  · cases hfile
    exact .inr (Option.some.inj (hrecord.symm.trans hcontents))
  · exact .inl (.inl ⟨inode', .inr hopened, hrecord⟩)
  · exact .inl (.inr hread)

/-- A process finds the anchor file. -/
theorem Consistent.opens (hh : h.Consistent) {p inode : ℕ} (hp : h.processes p = some .looking)
    (hfile : h.file = some inode) : (h.enter p (.opened inode)).Consistent := by
  apply hh.enter (by simp [hp]) id (fun base h => by cases h)
  · intro inode' hopened
    cases hopened
    exact hfile
  · intro record hrecord
    rcases hrecord.of_enter with hrecord | ⟨inode', hopened, hcontents⟩ | hread
    · exact hrecord
    · cases hopened
      exact .inl ⟨inode, .inl hfile, hcontents⟩
    · cases hread

/-- A process reads what it has opened. -/
theorem Consistent.read (hh : h.Consistent) {p inode : ℕ} (hp : h.processes p = some (.opened inode)) :
    (h.enter p (.read (h.contents inode))).Consistent := by
  apply hh.enter (by simp [hp]) id (fun base h => by cases h) (fun inode h => by cases h)
  intro record hrecord
  rcases hrecord.of_enter with hrecord | ⟨inode', hopened, -⟩ | hread
  · exact hrecord
  · cases hopened
  · exact .inl ⟨inode, .inr ⟨p, hp⟩, Phase.read.inj hread⟩

/-- A process takes over a record of this boot: somebody is done, since the record can be read. -/
theorem Consistent.adopt (hh : h.Consistent) {p : ℕ} {record : TimePointInfo}
    (hp : h.processes p = some (.read (some record))) (hboot : record.boot = h.boot) :
    (h.enter p (.finished (record.continued h.steady))).Consistent := by
  have hreadable : h.Readable record := .inr ⟨p, hp⟩
  rcases hh.settled with hopen | ⟨offset, hsettled⟩
  · exact absurd hboot (hopen.readable record hreadable)
  · refine ⟨hh.files.enter p (fun inode h => by cases h), .inr ⟨offset, ?_⟩⟩
    apply hsettled.enter (by simp [hp]) id
    · intro base hbase
      cases hbase
      exact ⟨(record.offset_continued h.steady).trans
        (hsettled.readable record hreadable hboot), hboot⟩
    · intro record' hrecord
      rcases hrecord.of_enter with hrecord | ⟨inode, hopened, -⟩ | hread
      · exact hrecord
      · cases hopened
      · cases hread

/-- A process that publishes takes the anchor file away. -/
theorem Consistent.remove (hh : h.Consistent) {p : ℕ} {base : TimePointInfo}
    (hp : h.processes p = some (.removing base)) :
    ({ h with file := none }.enter p (.retrying base)).Consistent := by
  obtain ⟨hbase, inode, htmp, hcontents⟩ := (hh.unsettled_of_publishing hp trivial).owns p _ hp
  have hfiles : FilesApart { h with file := none } := by
    refine ⟨hh.files.boot, nofun, hh.files.opened, fun inode htmp => ?_⟩
    obtain ⟨hlt, -, hopened⟩ := hh.files.tmp inode htmp
    exact ⟨hlt, nofun, hopened⟩
  have hread : ∀ record, Readable { h with file := none } record → h.Readable record := by
    rintro record (⟨inode', hfile | hopened, hrecord⟩ | hread)
    · cases hfile
    · exact .inl ⟨inode', .inr hopened, hrecord⟩
    · exact .inr hread
  exact hh.publish hp trivial trivial rfl rfl hfiles hread
    ⟨hbase, inode, htmp, hcontents⟩ ⟨hbase, inode, htmp, hcontents⟩

/-- A safe step of `adopt_shared_anchor` keeps the host consistent. -/
theorem Consistent.go (hh : h.Consistent) {p : ℕ} {system : Int64} {phase : Phase}
    (hp : h.processes p = some phase) (hsafe : h.Safe (.go p system)) :
    (h.go replaces p system phase).Consistent := by
  simp only [Safe, hp] at hsafe
  cases phase with
  | looking =>
    cases hfile : h.file with
    | none =>
      simp only [Host.go, hfile]
      exact hh.sample p (hsafe hfile)
    | some inode =>
      simp only [Host.go, hfile]
      exact hh.opens hp hfile
  | opened inode => exact hh.read hp
  | read record =>
    cases record with
    | none => exact hh.sample p hsafe
    | some record =>
      simp only at hsafe
      simp only [Host.go]
      by_cases husable : record.Usable h.steady
      · rw [if_pos husable] at hsafe ⊢
        exact hh.adopt hp hsafe
      · rw [if_neg husable] at hsafe ⊢
        exact hh.sample p hsafe
  | sampling => exact hh.publish hp trivial trivial rfl rfl hh.files (fun _ h => h) trivial rfl
  | creating base =>
    obtain ⟨htmp, -, hprocesses, hboot, -⟩ := h.truncate_spec
    have hbase : base.boot = h.truncate.2.boot :=
      ((hh.unsettled_of_publishing hp trivial).owns p _ hp).trans hboot.symm
    exact hh.publish hp trivial trivial hprocesses hboot hh.files.truncate
      (fun _ => Readable.of_truncate) hbase ⟨hbase, htmp⟩
  | writing base inode =>
    obtain ⟨hbase, htmp⟩ := (hh.unsettled_of_publishing hp trivial).owns p _ hp
    exact hh.publish hp trivial trivial rfl rfl (hh.files.write hbase inode)
      (fun _ => hh.files.readable_of_write htmp) ⟨hbase, htmp⟩
      ⟨hbase, inode, htmp, Function.update_self ..⟩
  | moving base =>
    obtain ⟨hbase, inode, htmp, hcontents⟩ := (hh.unsettled_of_publishing hp trivial).owns p _ hp
    simp only [Host.go]
    cases hrename : h.rename replaces with
    | none =>
      exact hh.publish hp trivial trivial rfl rfl hh.files (fun _ h => h)
        ⟨hbase, inode, htmp, hcontents⟩ ⟨hbase, inode, htmp, hcontents⟩
    | some h' => exact hh.finish_rename hp trivial hbase htmp hcontents hrename
  | removing base => exact hh.remove hp
  | retrying base =>
    obtain ⟨hbase, inode, htmp, hcontents⟩ := (hh.unsettled_of_publishing hp trivial).owns p _ hp
    simp only [Host.go]
    cases hrename : h.rename replaces with
    | none => exact hh.finish hp trivial hbase rfl rfl hh.files fun _ => .inl
    | some h' => exact hh.finish_rename hp trivial hbase htmp hcontents hrename
  | finished base => exact hh

/-- A process is gone. -/
theorem Consistent.kill (hh : h.Consistent) {p : ℕ}
    (hp : ∀ base, h.processes p ≠ some (.finished base)) :
    Consistent { h with processes := Function.update h.processes p none } := by
  have hleft : ∀ q phase, Function.update h.processes p none q = some phase →
      h.processes q = some phase := by
    intro q phase hq
    rw [Function.update_apply] at hq
    split at hq
    · cases hq
    · exact hq
  have hread : ∀ record, Readable { h with processes := Function.update h.processes p none } record →
      h.Readable record := by
    rintro record (⟨inode, hfile | ⟨q, hq⟩, hrecord⟩ | ⟨q, hq⟩)
    · exact .inl ⟨inode, .inl hfile, hrecord⟩
    · exact .inl ⟨inode, .inr ⟨q, hleft q _ hq⟩, hrecord⟩
    · exact .inr ⟨q, hleft q _ hq⟩
  constructor
  · refine ⟨hh.files.boot, hh.files.file, fun q inode hq => hh.files.opened q inode (hleft q _ hq), ?_⟩
    intro inode htmp
    obtain ⟨hlt, hfile, hopened⟩ := hh.files.tmp inode htmp
    exact ⟨hlt, hfile, fun q hq => hopened q (hleft q _ hq)⟩
  · rcases hh.settled with hopen | ⟨offset, hsettled⟩
    · refine .inl ⟨fun q base hq => hopen.unfinished q base (hleft q _ hq),
        fun record hrecord => hopen.readable record (hread record hrecord), ?_,
        fun q phase hq => hopen.owns q phase (hleft q _ hq)⟩
      intro q r phase phase' hq hr
      exact hopen.unique q r phase phase' (hleft q _ hq) (hleft r _ hr)
    · refine .inr ⟨offset, ?_, fun q phase hq => hsettled.idle q phase (hleft q _ hq),
        fun q base hq => hsettled.finished q base (hleft q _ hq),
        fun record hrecord => hsettled.readable record (hread record hrecord)⟩
      obtain ⟨q, base, hq⟩ := hsettled.exists_finished
      have hne : q ≠ p := by
        rintro rfl
        exact hp base hq
      exact ⟨q, base, by simpa [hne] using hq⟩

/-- After a reboot nobody has an anchor, and every record is from before it. -/
theorem Consistent.reboot (hh : h.Consistent) (steady : Int64) :
    Consistent { h with boot := h.boot + 1, steady := steady, processes := fun _ => none } := by
  constructor
  · refine ⟨?_, hh.files.file, nofun, ?_⟩
    · intro inode record hrecord
      exact Nat.le_succ_of_le (hh.files.boot inode record hrecord)
    · intro inode htmp
      obtain ⟨hlt, hfile, -⟩ := hh.files.tmp inode htmp
      exact ⟨hlt, hfile, nofun⟩
  · refine .inl ⟨nofun, ?_, nofun, nofun⟩
    rintro record (⟨inode, -, hrecord⟩ | ⟨q, hq⟩)
    · exact Nat.ne_of_lt (Nat.lt_succ_of_le (hh.files.boot inode record hrecord))
    · cases hq

theorem Consistent.tick (hh : h.Consistent) (steady : Int64) :
    Consistent { h with steady := steady } := by
  refine ⟨⟨hh.files.boot, hh.files.file, hh.files.opened, hh.files.tmp⟩, ?_⟩
  rcases hh.settled with hopen | ⟨offset, hsettled⟩
  · exact .inl ⟨hopen.unfinished, hopen.readable, hopen.unique, hopen.owns⟩
  · exact .inr ⟨offset, hsettled.exists_finished, hsettled.idle, hsettled.finished,
      hsettled.readable⟩

theorem Consistent.step {s : Step} (hh : h.Consistent) (hsafe : h.Safe s) :
    (h.step replaces s).Consistent := by
  cases s with
  | start p =>
    simp only [Host.step]
    split
    · exact hh
    · rename_i hp
      have hnone : h.processes p = none := Option.not_isSome_iff_eq_none.mp hp
      apply hh.enter (by simp [hnone]) id (fun base h => by cases h) (fun inode h => by cases h)
      intro record hrecord
      rcases hrecord.of_enter with hrecord | ⟨inode, hopened, -⟩ | hread
      · exact hrecord
      · cases hopened
      · cases hread
  | go p system =>
    simp only [Host.step]
    cases hp : h.processes p with
    | none => exact hh
    | some phase => exact hh.go hp hsafe
  | kill p =>
    simp only [Host.step]
    split
    · exact hh
    · rename_i hp
      exact hh.kill hp
  | tick steady =>
    simp only [Host.step]
    split
    · exact hh.tick steady
    · exact hh
  | reboot steady => exact hh.reboot steady

/-- In a run whose steps are safe, all processes of a boot that are done use the same offset, and
it was taken in that boot. -/
theorem anchors_agree {steady : Int64} {steps : List Step}
    (hsafe : Along (step replaces) Safe (fresh steady) steps) :
    let h := (fresh steady).run replaces steps
    ∀ p q base base', h.processes p = some (.finished base) →
      h.processes q = some (.finished base') →
        base.offset = base'.offset ∧ base.boot = h.boot ∧ base'.boot = h.boot := by
  intro h p q base base' hp hq
  have hh : h.Consistent :=
    hsafe.foldl (fun _ _ hh hsafe => hh.step hsafe) (consistent_fresh steady)
  rcases hh.settled with hopen | ⟨offset, hsettled⟩
  · exact absurd hp (hopen.unfinished p base)
  · obtain ⟨hoffset, hboot⟩ := hsettled.finished p base hp
    obtain ⟨hoffset', hboot'⟩ := hsettled.finished q base' hq
    exact ⟨hoffset.trans hoffset'.symm, hboot, hboot'⟩

theorem safe_of_usable {p : ℕ} {system : Int64} {record : TimePointInfo}
    (hp : h.processes p = some (.read (some record))) (husable : record.Usable h.steady)
    (hboot : record.boot = h.boot) : h.Safe (.go p system) := by
  simp [Safe, hp, husable, hboot]

/-- A process publishes its pair, and another one takes it over 500 later. -/
def exampleSteps : List Step :=
  [.start 0, .go 0 0, .go 0 90000, .go 0 0, .go 0 0, .go 0 0, .tick 1500, .start 1, .go 1 0, .go 1 0,
    .go 1 0]

theorem safe_exampleSteps : Along (step true) Safe (fresh 1000) exampleSteps := by
  refine ⟨trivial, fun _ => ?_, trivial, trivial, trivial, trivial, trivial, trivial,
    (fun h => by cases h), trivial, ?_, trivial⟩
  · intro p phase hp
    rcases processes_enter hp with ⟨-, rfl⟩ | ⟨-, hp⟩
    · exact ⟨id, fun base h => by cases h⟩
    · cases hp
  · exact safe_of_usable rfl (by decide) rfl

/-- Both are 89000 behind the wall clock. -/
theorem anchors_agree_example :
    ∃ base base' : TimePointInfo,
      ((fresh 1000).run true exampleSteps).processes 0 = some (.finished base) ∧
      ((fresh 1000).run true exampleSteps).processes 1 = some (.finished base') ∧
      base.offset = 89000 ∧ base.offset = base'.offset := by
  have hp : ((fresh 1000).run true exampleSteps).processes 0 =
      some (.finished ⟨0, 90000, 1000⟩) := by decide +kernel
  have hq : ((fresh 1000).run true exampleSteps).processes 1 =
      some (.finished ⟨0, 90500, 1500⟩) := by decide +kernel
  exact ⟨_, _, hp, hq, by decide, (anchors_agree safe_exampleSteps 0 1 _ _ hp hq).1⟩

/-- The machine boots again, and its steady clock is past the record when a process looks for
one: it takes over the pair from before the boot. -/
theorem stale_anchor_adopted :
    ∃ base : TimePointInfo,
      let h := (fresh 1000).run true [.start 0, .go 0 0, .go 0 90000, .go 0 0, .go 0 0, .go 0 0,
        .reboot 2000, .start 0, .go 0 0, .go 0 0, .go 0 0]
      h.processes 0 = some (.finished base) ∧ base.boot ≠ h.boot :=
  ⟨⟨0, 91000, 2000⟩, by decide +kernel, by decide +kernel⟩

end Host

end Kungfu.Yijinjing
