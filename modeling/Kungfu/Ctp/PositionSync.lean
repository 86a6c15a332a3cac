import Kungfu.Ctp.Query
import Kungfu.Logic.Run
import Mathlib.Algebra.BigOperators.Group.List.Basic
import Mathlib.Algebra.Order.Ring.Rat
import Mathlib.Data.List.Induction

/-!
# The synchronisation of positions

The rows of a position query are added up by instrument and direction, and published when CTP
sends a last answer without a row.  A last answer with a row publishes nothing, so its rows stay
and are added to those of the next query, and so do the rows of a query that is given up.
-/

namespace Kungfu.Ctp

open Longfist Logic

/-! ## Adding up -/

/-- The amounts of the row are the sums over rows of CTP. -/
structure PositionRow.IsSum (rows : List InvestorPositionField) (row : PositionRow) : Prop where
  volume : row.volume = (rows.map (·.position)).sum
  yesterdayVolume : row.yesterdayVolume = (rows.map (·.ydPosition)).sum
  frozenTotal : row.frozenTotal = (rows.map (·.frozen)).sum
  margin : row.margin = (rows.map (·.useMargin)).sum
  positionPnl : row.positionPnl = (rows.map (·.positionProfit)).sum
  closePnl : row.closePnl = (rows.map (·.closeProfit)).sum
  openAmount : row.openAmount = (rows.map (·.openAmount)).sum
  openVolume : row.openVolume = (rows.map (·.openVolume)).sum
  openCost : row.openCost = (rows.map (·.openCost)).sum

/-- One position for each instrument and direction, with the sums over its rows. -/
structure Sums (rows : List InvestorPositionField) (positions : List (Σ key, Position key)) :
    Prop where
  nodup : (positions.map fun position => (position.2.instrumentId, position.2.direction)).Nodup
  covers : ∀ key, (∃ position ∈ positions, (position.2.instrumentId, position.2.direction) = key) ↔
    ∃ row ∈ rows, row.instrumentId ≠ "" ∧ row.key = key
  sums : ∀ position ∈ positions, ∃ (home : UInt32) (now : Int64) (multiple : ℤ)
    (key : String × Direction) (row : PositionRow),
      position = ⟨_, row.toPosition home now multiple key⟩ ∧
        row.IsSum (rows.filter (·.key = key))

variable {M : Markets} {home : UInt32}

theorem PositionRow.isSum_empty : PositionRow.empty.IsSum [] :=
  ⟨rfl, rfl, rfl, rfl, rfl, rfl, rfl, rfl, rfl⟩

theorem PositionRow.IsSum.label {rows : List InvestorPositionField} {row : PositionRow}
    (h : row.IsSum rows) (position : InvestorPositionField) : (row.label M position).IsSum rows := by
  unfold PositionRow.label
  split
  · exact ⟨h.volume, h.yesterdayVolume, h.frozenTotal, h.margin, h.positionPnl, h.closePnl,
      h.openAmount, h.openVolume, h.openCost⟩
  · exact h

theorem PositionRow.IsSum.add {rows : List InvestorPositionField} {row : PositionRow}
    (h : row.IsSum rows) (position : InvestorPositionField) :
    (row.add M position).IsSum (rows ++ [position]) := by
  have hlabel := h.label (M := M) position
  constructor
  · simp [PositionRow.add, hlabel.volume]
  · simp [PositionRow.add, hlabel.yesterdayVolume]
  · simp [PositionRow.add, hlabel.frozenTotal]
  · simp [PositionRow.add, hlabel.margin]
  · simp [PositionRow.add, hlabel.positionPnl]
  · simp [PositionRow.add, hlabel.closePnl]
  · simp [PositionRow.add, hlabel.openAmount]
  · simp [PositionRow.add, hlabel.openVolume]
  · simp [PositionRow.add, hlabel.openCost]

/-- `pending_positions_` after rows were added up. -/
def table (M : Markets) (rows : List InvestorPositionField) : PendingPositions :=
  rows.foldl (fun pending row => accumulate M row pending) ∅

theorem table_concat (rows : List InvestorPositionField) (row : InvestorPositionField) :
    table M (rows ++ [row]) = accumulate M row (table M rows) := by
  rw [table, List.foldl_append]
  rfl

theorem mem_table_iff {rows : List InvestorPositionField} {key : String × Direction} :
    key ∈ table M rows ↔ ∃ row ∈ rows, row.instrumentId ≠ "" ∧ row.key = key := by
  induction rows using List.reverseRecOn with
  | nil => simp [table]
  | append_singleton rows row ih =>
    rw [table_concat]
    unfold accumulate
    split
    · rename_i hempty
      rw [ih]
      simp [hempty, or_and_right, exists_or]
    · rename_i hgiven
      rw [AList.mem_insert, ih]
      constructor
      · rintro (rfl | ⟨row', hrow', hkey⟩)
        · exact ⟨row, List.mem_append_right _ List.mem_cons_self, hgiven, rfl⟩
        · exact ⟨row', List.mem_append_left _ hrow', hkey⟩
      · rintro ⟨row', hrow', hkey⟩
        rcases List.mem_append.mp hrow' with hrow' | hrow'
        · exact .inr ⟨row', hrow', hkey⟩
        · rw [List.mem_singleton.mp hrow'] at hkey
          exact .inl hkey.2.symm

/-- What is kept for an instrument and a direction are the sums over its rows. -/
theorem lookup_table {rows : List InvestorPositionField} {key : String × Direction}
    {row : PositionRow} (h : (table M rows).lookup key = some row) :
    row.IsSum (rows.filter (·.key = key)) := by
  induction rows using List.reverseRecOn generalizing row with
  | nil => simp [table] at h
  | append_singleton rows position ih =>
    rw [table_concat] at h
    unfold accumulate at h
    rw [List.filter_append]
    split at h
    · rename_i hempty
      have hne : position.key ≠ key := by
        rintro rfl
        have hmem : position.key ∈ table M rows := AList.lookup_isSome.mp (by simp [h])
        obtain ⟨row', -, hgiven, hkey⟩ := mem_table_iff.mp hmem
        exact hgiven ((congrArg Prod.fst hkey).trans hempty)
      simpa [hne] using ih h
    · rename_i hgiven
      by_cases hkey : position.key = key
      · subst hkey
        rw [AList.lookup_insert] at h
        cases h
        have hfilter : [position].filter (·.key = position.key) = [position] := by simp
        rw [hfilter]
        apply PositionRow.IsSum.add
        cases hlookup : (table M rows).lookup position.key with
        | some row => exact ih hlookup
        | none =>
          have hnone : rows.filter (·.key = position.key) = [] := by
            apply List.filter_eq_nil_iff.mpr
            intro row hrow hkey
            have hkey : row.key = position.key := by simpa using hkey
            apply AList.lookup_eq_none.mp hlookup
            refine mem_table_iff.mpr ⟨row, hrow, ?_, hkey⟩
            intro hempty
            exact hgiven ((congrArg Prod.fst hkey).symm.trans hempty)
          rw [hnone]
          exact PositionRow.isSum_empty
      · rw [AList.lookup_insert_ne (Ne.symm hkey)] at h
        simpa [hkey] using ih h

/-- The positions that are published for what is kept. -/
theorem sums_table (rows : List InvestorPositionField) (now : Int64) (multiple : String → ℤ) :
    Sums rows ((table M rows).entries.map fun entry =>
      ⟨_, entry.2.toPosition home now (multiple entry.1.1) entry.1⟩) := by
  constructor
  · rw [List.map_map]
    exact (table M rows).nodupKeys
  · intro key
    rw [← mem_table_iff (M := M)]
    constructor
    · rintro ⟨position, hposition, rfl⟩
      obtain ⟨entry, hentry, rfl⟩ := List.mem_map.mp hposition
      exact AList.mem_keys.mpr (List.mem_keys_of_mem hentry)
    · intro hkey
      obtain ⟨row, hentry⟩ := List.exists_of_mem_keys (AList.mem_keys.mp hkey)
      exact ⟨_, List.mem_map_of_mem hentry, rfl⟩
  · intro position hposition
    obtain ⟨entry, hentry, rfl⟩ := List.mem_map.mp hposition
    exact ⟨home, now, _, entry.1, entry.2, rfl, lookup_table (AList.mem_lookup_iff.mpr hentry)⟩

/-! ## What the queued tasks will do -/

/-- The rows that are kept, and those that were published for requests. -/
structure View where
  kept : List (ℕ × InvestorPositionField)
  done : List (ℕ × List InvestorPositionField)

/-- What a task does to them. -/
def View.perform (v : View) (task : ℕ × QueryTask) : View :=
  match task.2 with
  | .onQryInvestorPosition position _ => { v with kept := v.kept ++ [(task.1, position)] }
  | .onQryInvestorPositionEnd => ⟨[], v.done ++ [(task.1, v.kept.map (·.2))]⟩
  | _ => v

theorem exists_of_forall₂ {α β : Type*} {R : α → β → Prop} {as : List α} {bs : List β}
    (h : List.Forall₂ R as bs) {a : α} (ha : a ∈ as) : ∃ b ∈ bs, R a b := by
  induction h with
  | nil => cases ha
  | cons hR _ ih =>
    rcases List.mem_cons.mp ha with rfl | ha
    · exact ⟨_, List.mem_cons_self, hR⟩
    · obtain ⟨b, hb, hR⟩ := ih ha
      exact ⟨b, List.mem_cons_of_mem _ hb, hR⟩

/-- What is published stays. -/
theorem View.done_stays (v : View) (tasks : List (ℕ × QueryTask)) :
    v.done <+: (tasks.foldl View.perform v).done := by
  induction tasks generalizing v with
  | nil => exact List.prefix_rfl
  | cons task tasks ih =>
    apply List.IsPrefix.trans _ (ih (v.perform task))
    unfold View.perform
    split
    · exact List.prefix_rfl
    · exact List.prefix_append ..
    · exact List.prefix_rfl

namespace Desk

variable {d d' : Desk}

/-- The view of what is kept and published at the desk. -/
structure Shows (M : Markets) (d : Desk) (v : View) : Prop where
  kept : d.pendingPositions = table M (v.kept.map (·.2))
  published : List.Forall₂ (fun stream entry => stream.request = entry.1 ∧
    Sums entry.2 stream.positions) d.published v.done

theorem Shows.perform {v : View} (h : d.Shows M v) (now : Int64) (task : ℕ × QueryTask) :
    (task.2.perform M home now task.1 d).Shows M (v.perform task) := by
  obtain ⟨request, task⟩ := task
  cases task with
  | connection event => cases event <;> exact ⟨h.kept, h.published⟩
  | onQryInstrumentEnd => exact ⟨h.kept, h.published⟩
  | onQryInstrument _ isLast | onQryTradingAccount isLast | onQryOrder isLast
  | onQryTrade isLast => cases isLast <;> exact ⟨h.kept, h.published⟩
  | onQryInvestorPosition position isLast =>
    have hkept : accumulate M position d.pendingPositions =
        table M ((v.kept ++ [(request, position)]).map (·.2)) := by
      rw [List.map_append, List.map_singleton, table_concat, h.kept]
    cases isLast <;> exact ⟨hkept, h.published⟩
  | onQryInvestorPositionEnd =>
    refine ⟨rfl, List.rel_append h.published ?_⟩
    refine List.Forall₂.cons ⟨rfl, ?_⟩ .nil
    rw [h.kept]
    exact sums_table _ now fun instrumentId => d.multiple instrumentId

theorem Shows.foldl {v : View} (h : d.Shows M v) (now : Int64) (tasks : List (ℕ × QueryTask)) :
    (tasks.foldl (fun d task => task.2.perform M home now task.1 d) d).Shows M
      (tasks.foldl View.perform v) := by
  induction tasks generalizing d v with
  | nil => exact h
  | cons task tasks ih => exact ih (h.perform now task)

/-! ## Safe steps -/

/-- The rows that CTP sent for a request. -/
def rowsOf (request : ℕ) (d : Desk) : List InvestorPositionField :=
  (d.rows.filter (·.1 = request)).map (·.2)

/-- The position query is answered. -/
def IsSynced (request : ℕ) (d : Desk) : Prop := (request, .investorPosition) ∈ d.answered

instance (request : ℕ) (d : Desk) : Decidable (d.IsSynced request) :=
  inferInstanceAs (Decidable (_ ∈ _))

/-- The last answer to a position query reports no error and has no row, and all rows that were
sent belong to it or to queries that are answered. -/
def EndsEmpty (d : Desk) : Step → Prop
  | .reply request (.investorPosition row) isError isLast =>
      d.calling = [] ∧ (request, .investorPosition) ∈ d.outstanding → isLast = true →
        isError = false ∧ row = none ∧ ∀ other ∈ d.rows, other.1 = request ∨ d.IsSynced other.1
  | _ => True

instance (d : Desk) : DecidablePred d.EndsEmpty
  | .reply request (.investorPosition row) isError isLast =>
      have : Decidable (∀ other ∈ d.rows, other.1 = request ∨ d.IsSynced other.1) :=
        List.decidableBAll _ _
      inferInstanceAs (Decidable (d.calling = [] ∧ _ → isLast = true → isError = false ∧ row = none ∧ _))
  | .reply _ (.instrument _) _ _ | .reply _ (.tradingAccount _) _ _ | .reply _ (.order _) _ _
  | .reply _ (.trade _) _ _ => isTrue trivial
  | .push _ | .tick _ _ _ | .drain _ | .enqueue | .connection _ => isTrue trivial

/-- The rows that are kept are those of queries without a last answer, and each answered query
is published, with its rows. -/
structure Complete (d : Desk) (v : View) : Prop where
  kept : v.kept = d.rows.filter fun row => ¬ d.IsSynced row.1
  done : ∀ entry ∈ v.done, d.IsSynced entry.1 ∧ entry.2 = d.rowsOf entry.1
  nodup : (v.done.map (·.1)).Nodup
  complete : ∀ request, d.IsSynced request → request ∈ v.done.map (·.1)

/-- What is kept and published, once the tasks that are queued or about to be are performed. -/
structure Synced (M : Markets) (d : Desk) : Prop extends Numbered d where
  view : ∃ v, d.Shows M v ∧ Complete d ((d.tasks ++ d.calling).foldl View.perform v)

variable {request request' : ℕ} {answer : Answer} {isError isLast : Bool} {v w : View}

theorem isSynced_reply :
    (d.reply request answer isError isLast).IsSynced request' ↔
      d.IsSynced request' ∨
        request' = request ∧ answer.query = .investorPosition ∧ isLast = true := by
  cases isLast <;> simp [IsSynced, reply, or_comm, eq_comm]

theorem rows_reply : (d.reply request answer isError isLast).rows = match answer with
    | .investorPosition (some position) =>
        if isError then d.rows else d.rows ++ [(request, position)]
    | _ => d.rows := rfl

/-- Tasks of other queries. -/
theorem foldl_view_of_ne (hne : answer.query ≠ .investorPosition) (w : View) :
    ((callback isError isLast answer).map fun task => (request, task)).foldl View.perform w = w := by
  cases isError with
  | true => cases answer <;> rfl
  | false =>
    cases answer with
    | instrument row => cases row <;> cases isLast <;> rfl
    | investorPosition row => exact absurd rfl hne
    | tradingAccount isGiven | order isGiven | trade isGiven => cases isGiven <;> rfl

theorem Complete.of_eq (h : Complete d w) (hrows : d'.rows = d.rows)
    (hsynced : ∀ request, d'.IsSynced request ↔ d.IsSynced request) : Complete d' w := by
  refine ⟨?_, ?_, h.nodup, fun request hrequest => h.complete request ((hsynced request).mp hrequest)⟩
  · rw [h.kept, hrows]
    simp only [hsynced]
  · intro entry hentry
    rw [hsynced, rowsOf, hrows]
    exact h.done entry hentry

/-- A row is kept. -/
theorem Complete.row (h : Complete d w) {position : InvestorPositionField}
    (hsynced : ¬ d.IsSynced request) (hrows : d'.rows = d.rows ++ [(request, position)])
    (hsame : ∀ request, d'.IsSynced request ↔ d.IsSynced request) :
    Complete d' { w with kept := w.kept ++ [(request, position)] } := by
  refine ⟨?_, ?_, h.nodup, fun request hrequest => h.complete request ((hsame request).mp hrequest)⟩
  · rw [hrows, List.filter_append, h.kept]
    simp [hsame, hsynced]
  · intro entry hentry
    obtain ⟨hdone, hrowsOf⟩ := h.done entry hentry
    have hne : request ≠ entry.1 := by
      rintro rfl
      exact hsynced hdone
    rw [hsame, rowsOf, hrows]
    refine ⟨hdone, ?_⟩
    simpa [rowsOf, hne] using hrowsOf

/-- What is kept is published. -/
theorem Complete.flush (h : Complete d w) (hsynced : ¬ d.IsSynced request)
    (hothers : ∀ other ∈ d.rows, other.1 = request ∨ d.IsSynced other.1) (hrows : d'.rows = d.rows)
    (hnew : ∀ request', d'.IsSynced request' ↔ d.IsSynced request' ∨ request' = request) :
    Complete d' ⟨[], w.done ++ [(request, w.kept.map (·.2))]⟩ := by
  have hkept : w.kept.map (·.2) = d.rowsOf request := by
    rw [h.kept, rowsOf]
    congr 1
    apply List.filter_congr
    intro other hother
    rcases hothers other hother with heq | hdone
    · simp [heq, hsynced]
    · have hne : other.1 ≠ request := by
        rintro heq
        exact hsynced (heq ▸ hdone)
      simp [hdone, hne]
  constructor
  · rw [hrows]
    symm
    apply List.filter_eq_nil_iff.mpr
    intro other hother
    rcases hothers other hother with heq | hdone
    · simp [hnew, heq]
    · simp [hnew, hdone]
  · intro entry hentry
    rw [hnew, rowsOf, hrows]
    rcases List.mem_append.mp hentry with hentry | hentry
    · exact ⟨.inl (h.done entry hentry).1, (h.done entry hentry).2⟩
    · rw [List.mem_singleton.mp hentry]
      exact ⟨.inr rfl, hkept⟩
  · rw [List.map_append]
    apply h.nodup.append (List.nodup_singleton _)
    intro request' hdone hmem
    obtain ⟨entry, hentry, rfl⟩ := List.mem_map.mp hdone
    have heq : entry.1 = request := List.mem_singleton.mp hmem
    exact hsynced (heq ▸ (h.done entry hentry).1)
  · intro request' hrequest'
    rw [List.map_append]
    rcases (hnew request').mp hrequest' with hrequest' | rfl
    · exact List.mem_append_left _ (h.complete request' hrequest')
    · exact List.mem_append_right _ List.mem_cons_self

theorem Complete.reply (h : Complete d w) (hcalling : d.calling = [])
    (hsynced : ¬ d.IsSynced request) (hsent : (request, answer.query) ∈ d.outstanding)
    (hends : d.EndsEmpty (.reply request answer isError isLast)) :
    Complete (d.reply request answer isError isLast)
      (((callback isError isLast answer).map fun task => (request, task)).foldl View.perform w) := by
  by_cases hquery : answer.query = .investorPosition
  · cases answer with
    | instrument _ | tradingAccount _ | order _ | trade _ => cases hquery
    | investorPosition row =>
      cases isLast with
      | false =>
        have hsame : ∀ request', (d.reply request (.investorPosition row) isError false).IsSynced
            request' ↔ d.IsSynced request' := by simp [isSynced_reply]
        cases isError with
        | true => exact h.of_eq (by cases row <;> rfl) hsame
        | false =>
          cases row with
          | none => exact h.of_eq rfl hsame
          | some position => exact h.row hsynced rfl hsame
      | true =>
        obtain ⟨rfl, rfl, hothers⟩ := hends ⟨hcalling, hsent⟩ rfl
        have hrows : (d.reply request (.investorPosition none) false true).rows = d.rows := rfl
        exact h.flush hsynced hothers hrows fun request' => by simp [isSynced_reply, Answer.query]
  · rw [foldl_view_of_ne hquery]
    apply h.of_eq
    · rw [rows_reply]
      cases answer with
      | investorPosition _ => exact absurd rfl hquery
      | instrument _ | tradingAccount _ | order _ | trade _ => rfl
    · intro request'
      simp [isSynced_reply, hquery]

/-! ## Runs -/

theorem synced_start (M : Markets) : Synced M start :=
  ⟨numbered_start, ⟨[], []⟩, ⟨rfl, .nil⟩, rfl, nofun, List.nodup_nil, nofun⟩

/-- The positions are not touched. -/
structure SamePositions (d d' : Desk) : Prop where
  pendingPositions : d'.pendingPositions = d.pendingPositions
  published : d'.published = d.published
  tasks : d'.tasks ++ d'.calling = d.tasks ++ d.calling
  rows : d'.rows = d.rows
  answered : d'.answered = d.answered

theorem samePositions_sendNext (d : Desk) (now : Int64) (isSent : Bool) :
    d.SamePositions (d.sendNext now isSent) := by
  unfold sendNext
  split
  · exact ⟨rfl, rfl, rfl, rfl, rfl⟩
  · split
    · exact ⟨rfl, rfl, rfl, rfl, rfl⟩
    · split
      · exact ⟨rfl, rfl, rfl, rfl, rfl⟩
      · split <;> exact ⟨rfl, rfl, rfl, rfl, rfl⟩

theorem samePositions_pumpQueryQueue (d : Desk) (now sentAt : Int64) (isSent : Bool) :
    d.SamePositions (d.pumpQueryQueue now sentAt isSent) := by
  unfold pumpQueryQueue
  split
  · exact samePositions_sendNext ..
  · split
    · obtain ⟨hpending, hpublished, htasks, hrows, hanswered⟩ := samePositions_sendNext
        { d with inFlight := none, timedOut := _ :: d.timedOut } sentAt isSent
      exact ⟨hpending, hpublished, htasks, hrows, hanswered⟩
    · exact ⟨rfl, rfl, rfl, rfl, rfl⟩

theorem Synced.of_same (h : Synced M d) (hnumbered : d'.Numbered) (hsame : d.SamePositions d') :
    Synced M d' := by
  obtain ⟨v, hshows, hcomplete⟩ := h.view
  refine ⟨hnumbered, v, ⟨hsame.pendingPositions.trans hshows.kept, ?_⟩, ?_⟩
  · rw [hsame.published]
    exact hshows.published
  · rw [hsame.tasks]
    apply hcomplete.of_eq hsame.rows
    intro request
    rw [IsSynced, hsame.answered, IsSynced]

theorem Synced.step (h : Synced M d) {s : Step} (hends : d.EndsEmpty s) :
    Synced M (d.step M home s) := by
  have hnumbered : (d.step M home s).Numbered := h.toNumbered.step s
  cases s with
  | push queries => exact h.of_same hnumbered ⟨rfl, rfl, rfl, rfl, rfl⟩
  | tick now sentAt isSent => exact h.of_same hnumbered (samePositions_pumpQueryQueue ..)
  | drain now =>
    obtain ⟨v, hshows, hcomplete⟩ := h.view
    obtain ⟨hsame, -⟩ := foldl_perform_spec M home now d.tasks { d with tasks := [] }
    rw [← Desk.drainTasks] at hsame
    have hstart : Shows M { d with tasks := [] } v := ⟨hshows.kept, hshows.published⟩
    refine ⟨hnumbered, d.tasks.foldl View.perform v, hstart.foldl now d.tasks, ?_⟩
    simp only [Desk.step]
    rw [hsame.tasks, hsame.calling, List.nil_append, ← List.foldl_append]
    apply hcomplete.of_eq hsame.rows
    intro request
    rw [IsSynced, hsame.answered, IsSynced]
  | reply request answer isError isLast =>
    simp only [Desk.step] at hnumbered ⊢
    split
    · rename_i henabled
      obtain ⟨hcalling, hsent⟩ := henabled
      obtain ⟨v, hshows, hcomplete⟩ := h.view
      rw [if_pos ⟨hcalling, hsent⟩] at hnumbered
      rw [hcalling, List.append_nil] at hcomplete
      have hsynced : ¬ d.IsSynced request := fun hmem =>
        h.disjoint _ hsent (List.mem_map.mpr ⟨_, hmem, rfl⟩)
      refine ⟨hnumbered, v, ⟨hshows.kept, hshows.published⟩, ?_⟩
      have happend : (d.reply request answer isError isLast).tasks ++
          (d.reply request answer isError isLast).calling =
            d.tasks ++ (callback isError isLast answer).map fun task => (request, task) := rfl
      rw [happend, List.foldl_append]
      exact hcomplete.reply hcalling hsynced hsent hends
    · exact h
  | enqueue =>
    simp only [Desk.step] at hnumbered ⊢
    split
    · exact h
    · rename_i task calling hcalling
      rw [hcalling] at hnumbered
      apply h.of_same hnumbered
      refine ⟨rfl, rfl, ?_, rfl, rfl⟩
      rw [hcalling, List.append_assoc]
      rfl
  | connection event =>
    simp only [Desk.step] at hnumbered ⊢
    split
    · rename_i hcalling
      obtain ⟨v, hshows, hcomplete⟩ := h.view
      rw [if_pos hcalling] at hnumbered
      rw [hcalling, List.append_nil] at hcomplete
      refine ⟨hnumbered, v, ⟨hshows.kept, hshows.published⟩, ?_⟩
      rw [hcalling, List.append_nil, List.foldl_append]
      exact hcomplete.of_eq rfl fun _ => Iff.rfl
    · exact h

/-- In a run in which position queries end empty, no query is published twice, what is published
for a query are the sums over its rows, and once no task is left every answered one is
published. -/
theorem positions_published {steps : List Step}
    (hends : Along (step M home) EndsEmpty start steps) :
    let d := start.run M home steps
    (d.published.map (·.request)).Nodup ∧
      (∀ stream ∈ d.published, d.IsSynced stream.request ∧
        Sums (d.rowsOf stream.request) stream.positions) ∧
      (d.tasks = [] → d.calling = [] → ∀ request, d.IsSynced request →
        ∃ stream ∈ d.published, stream.request = request) := by
  intro d
  have hsynced : Synced M d :=
    hends.foldl (fun _ _ h hends => h.step hends) (synced_start M)
  obtain ⟨v, hshows, hcomplete⟩ := hsynced.view
  have hrequests : d.published.map (·.request) = v.done.map (·.1) := by
    apply List.forall₂_eq_eq_eq ▸ List.forall₂_map_left_iff.mpr (List.forall₂_map_right_iff.mpr _)
    exact hshows.published.imp fun _ _ h => h.1
  have hstays := v.done_stays (d.tasks ++ d.calling)
  refine ⟨?_, ?_, ?_⟩
  · rw [hrequests]
    exact hcomplete.nodup.sublist (hstays.map (·.1)).sublist
  · intro stream hstream
    obtain ⟨entry, hentry, hrequest, hsums⟩ := exists_of_forall₂ hshows.published hstream
    obtain ⟨hdone, hrows⟩ := hcomplete.done entry (hstays.subset hentry)
    rw [hrequest, ← hrows]
    exact ⟨hdone, hsums⟩
  · intro htasks hcalling request hrequest
    rw [htasks, hcalling] at hcomplete
    have hmem := hcomplete.complete request hrequest
    rw [List.append_nil, List.foldl_nil, ← hrequests] at hmem
    obtain ⟨stream, hstream, heq⟩ := List.mem_map.mp hmem
    exact ⟨stream, hstream, heq⟩

/-! ### Two position queries -/

def exampleField : InvestorPositionField where
  instrumentId := "au2412"
  exchangeId := "SHFE"
  posiDirection := '2'
  tradingDay := "20241008"
  preSettlementPrice := 600
  settlementPrice := 600
  position := 1
  ydPosition := 0
  longFrozen := 0
  shortFrozen := 0
  useMargin := 60000
  positionProfit := 0
  closeProfit := 0
  openAmount := 600000
  openVolume := 1
  openCost := 600000

/-- The positions are queried twice.  CTP refuses the other queries that follow the login. -/
def positionQueries (first second : List Step) : List Step :=
  [.connection .onLoginSuccess, .connection .onSettlementConfirmed, .drain 0, .tick 1 1 true,
    .tick 2 2 false, .tick 3 3 false, .tick 4 4 true] ++ first ++
  [.tick 5 5 false, .tick 6 6 false, .push [.investorPosition], .tick 7 7 true] ++ second

/-- A row, which may be the last answer, and the tasks it queues. -/
def sendRow (request : ℕ) (isLast : Bool) (now : Int64) : List Step :=
  [.reply request (.investorPosition (some exampleField)) false isLast, .enqueue, .drain now]

/-- The last answer, which has no row. -/
def sendEnd (request : ℕ) (now : Int64) : List Step :=
  [.reply request (.investorPosition none) false true, .enqueue, .drain now]

/-- Rows, and then an answer without one. -/
def positionSteps : List Step :=
  positionQueries (sendRow 3 false 4 ++ sendEnd 3 4) (sendRow 6 false 7 ++ sendEnd 6 7)

theorem endsEmpty_positionSteps : Along (step exampleMarkets 0) EndsEmpty start positionSteps := by
  decide +kernel

theorem positions_published_example :
    let d := start.run exampleMarkets 0 positionSteps
    ∃ stream ∈ d.published, stream.request = 6 ∧ Sums (d.rowsOf 6) stream.positions := by
  intro d
  obtain ⟨-, hsums, hpublished⟩ := positions_published endsEmpty_positionSteps
  obtain ⟨stream, hstream, heq⟩ :=
    hpublished (by decide +kernel) (by decide +kernel) 6 (by decide +kernel)
  exact ⟨stream, hstream, heq, heq ▸ (hsums stream hstream).2⟩

/-- The last answer to the first query has a row, and its rows are published with those of the
second. -/
theorem position_queries_mixed :
    let d := start.run exampleMarkets 0
      (positionQueries (sendRow 3 true 4) (sendRow 6 false 7 ++ sendEnd 6 7))
    d.IsSynced 3 ∧ d.IsSynced 6 ∧ d.tasks = [] ∧ d.calling = [] ∧
      d.published.map (·.request) = [6] ∧
      d.published.map (fun stream => stream.positions.map (·.2.volume)) = [[2]] := by
  decide +kernel

end Desk

end Kungfu.Ctp
