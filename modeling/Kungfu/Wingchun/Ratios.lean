import Kungfu.Wingchun.Instrument
import Mathlib.Data.List.Induction

/-!
# Forced ratios

A forced update of an instrument sets its margin and conversion ratios, an ordinary one brings all
the rest.  Whether ratios are protected against an ordinary update is told from a field of the
instrument, which ordinary updates copy with everything else and forced ones do not set.
-/

namespace Kungfu.Longfist

inductive CurrencyType
  | Unknown | CNY | HKD | USD | JPY | GBP | EUR | CNH | SGD | MYR
  deriving DecidableEq, Repr

/-- An `Instrument` with the fields that accounting has no use for. -/
structure InstrumentRecord extends Instrument where
  productId : List Int8
  priceTick : ℚ
  openDate : String
  createDate : String
  expireDate : String
  deliveryMonth : Int32
  isTrading : Bool
  currencyType : CurrencyType
  deriving DecidableEq, Repr

end Kungfu.Longfist

namespace Kungfu.Wingchun

open Longfist

/-- `InstrumentMap`. -/
abbrev InstrumentMap := UInt32 → Option InstrumentRecord

namespace Ratios

/-- The key of an instrument in the map. -/
def hashOf (i : InstrumentRecord) : UInt32 := hashInstrument i.exchangeId i.instrumentId

/-- An instrument with the ratios of another record. -/
def withRatiosOf (source i : InstrumentRecord) : InstrumentRecord :=
  { i with
    longMarginRatio := source.longMarginRatio
    shortMarginRatio := source.shortMarginRatio
    conversionRate := source.conversionRate }

/-- What an update makes of an instrument that is in the map. -/
def merge (inserted i : InstrumentRecord) : InstrumentRecord :=
  if i.forceUpdateRatio then withRatiosOf i inserted
  else if inserted.forceUpdateRatio then
    -- the field that was asked for is copied, too
    withRatiosOf inserted i
  else i

/-- `update_instrument`. -/
def updateInstrument (instruments : InstrumentMap) (i : InstrumentRecord) : InstrumentMap :=
  match instruments (hashOf i) with
  | none => Function.update instruments (hashOf i) (some i)
  | some inserted => Function.update instruments (hashOf i) (some (merge inserted i))

/-- One update after another. -/
def updateInstruments (us : List InstrumentRecord) (instruments : InstrumentMap) : InstrumentMap :=
  us.foldl updateInstrument instruments

/-! ## One instrument -/

/-- What an update makes of the entry of an instrument. -/
def updateEntry (entry : Option InstrumentRecord) (i : InstrumentRecord) :
    Option InstrumentRecord :=
  match entry with
  | none => some i
  | some inserted => some (merge inserted i)

variable {us : List InstrumentRecord} {instruments : InstrumentMap} {hash : UInt32}
  {i b h : InstrumentRecord}

theorem updateInstrument_apply : updateInstrument instruments i hash =
    if hashOf i = hash then updateEntry (instruments hash) i else instruments hash := by
  by_cases heq : hashOf i = hash
  · subst heq
    cases hentry : instruments (hashOf i) <;> simp [updateInstrument, updateEntry, hentry]
  · cases hentry : instruments (hashOf i) <;>
      simp [updateInstrument, hentry, heq, Function.update_of_ne (Ne.symm heq)]

/-- The updates of all instruments are, for one of them, the updates of it. -/
theorem updateInstruments_apply : updateInstruments us instruments hash =
    (us.filter fun i => hashOf i = hash).foldl updateEntry (instruments hash) := by
  induction us generalizing instruments with
  | nil => rfl
  | cons i us ih =>
      change updateInstruments us (updateInstrument instruments i) hash = _
      rw [ih, updateInstrument_apply]
      by_cases heq : hashOf i = hash <;> simp [heq]

/-! ## What it should come to -/

/-- The forced updates. -/
def forced (us : List InstrumentRecord) : List InstrumentRecord :=
  us.filter fun i => i.forceUpdateRatio

/-- The ordinary updates. -/
def ordinary (us : List InstrumentRecord) : List InstrumentRecord :=
  us.filter fun i => !i.forceUpdateRatio

/-- The last ordinary update, or else the first one. -/
def base (us : List InstrumentRecord) : Option InstrumentRecord :=
  (ordinary us).getLast?.or us.head?

/-- The instrument should have the ratios of the last forced update and all other fields of the last
ordinary one, or of the first if there is none. -/
def due (us : List InstrumentRecord) : Option InstrumentRecord :=
  match (forced us).getLast? with
  | none => base us
  | some source => (base us).map (withRatiosOf source)

/-- The updates of an instrument end with a forced one, or have only one that is ordinary, or the
last ordinary one brings the ratios of the last forced one. -/
def KeepsRatios (us : List InstrumentRecord) : Prop :=
  ∀ last ∈ us.getLast?, ∀ source ∈ (forced us).getLast?, last.forceUpdateRatio = false →
    (ordinary us).length = 1 ∨ withRatiosOf source last = last

@[simp] theorem forced_append (us : List InstrumentRecord) (i : InstrumentRecord) :
    forced (us ++ [i]) = forced us ++ if i.forceUpdateRatio then [i] else [] := by
  by_cases hforce : i.forceUpdateRatio <;> simp [forced, hforce]

@[simp] theorem ordinary_append (us : List InstrumentRecord) (i : InstrumentRecord) :
    ordinary (us ++ [i]) = ordinary us ++ if i.forceUpdateRatio then [] else [i] := by
  by_cases hforce : i.forceUpdateRatio <;> simp [ordinary, hforce]

theorem base_append_ordinary (hforce : i.forceUpdateRatio = false) :
    base (us ++ [i]) = some i := by
  simp [base, hforce]

theorem base_append_forced (hforce : i.forceUpdateRatio = true) (hus : us ≠ []) :
    base (us ++ [i]) = base us := by
  obtain ⟨u, us, rfl⟩ := List.exists_cons_of_ne_nil hus
  rw [base, ordinary_append, if_pos hforce, List.append_nil]
  rfl

@[simp] theorem withRatiosOf_withRatiosOf (source source' i : InstrumentRecord) :
    withRatiosOf source (withRatiosOf source' i) = withRatiosOf source i := rfl

@[simp] theorem withRatiosOf_self (i : InstrumentRecord) : withRatiosOf i i = i := rfl

@[simp] theorem forceUpdateRatio_withRatiosOf (source i : InstrumentRecord) :
    (withRatiosOf source i).forceUpdateRatio = i.forceUpdateRatio := rfl

/-- The instrument is, up to its ratios, the last ordinary update or else the first one. -/
theorem exists_base (hus : us ≠ []) :
    ∃ source b, base us = some b ∧ us.foldl updateEntry none = some (withRatiosOf source b) := by
  induction us using List.reverseRecOn with
  | nil => exact absurd rfl hus
  | append_singleton us i ih =>
      rw [List.foldl_append]
      by_cases hnil : us = []
      · subst hnil
        refine ⟨i, i, ?_, rfl⟩
        by_cases hforce : i.forceUpdateRatio <;> simp [base, ordinary, hforce]
      · obtain ⟨source, b, hb, hentry⟩ := ih hnil
        rw [hentry]
        by_cases hforce : i.forceUpdateRatio
        · exact ⟨i, b, by rw [base_append_forced hforce hnil, hb],
            by simp [updateEntry, merge, hforce]⟩
        · have hfalse : i.forceUpdateRatio = false := by simpa using hforce
          by_cases hheld : b.forceUpdateRatio
          · refine ⟨source, i, base_append_ordinary hfalse, ?_⟩
            simp [updateEntry, merge, hfalse, hheld, withRatiosOf]
          · refine ⟨i, i, base_append_ordinary hfalse, ?_⟩
            simp [updateEntry, merge, hfalse, hheld]

/-- Ratios are protected as long as no ordinary update came. -/
theorem forceUpdateRatio_base (hb : base us = some b) :
    b.forceUpdateRatio = true ↔ ordinary us = [] := by
  cases hordinary : (ordinary us).getLast? with
  | none =>
      have hnil : ordinary us = [] := List.getLast?_eq_none_iff.mp hordinary
      rw [base, hordinary, Option.none_or] at hb
      have hmem : b ∈ us := List.mem_of_head? hb
      simp only [hnil, iff_true]
      by_contra hforce
      have : b ∈ ordinary us := List.mem_filter.mpr ⟨hmem, by simpa using hforce⟩
      simp [hnil] at this
  | some last =>
      rw [base, hordinary, Option.some_or] at hb
      cases hb
      have hmem : b ∈ ordinary us := List.mem_of_getLast? hordinary
      have hforce : b.forceUpdateRatio = false := by simpa [ordinary] using (List.mem_filter.mp hmem).2
      simp [hforce, List.ne_nil_of_mem hmem]

/-- After a forced update the instrument is what it should be. -/
theorem foldl_append_forced (hforce : i.forceUpdateRatio = true) :
    (us ++ [i]).foldl updateEntry none = due (us ++ [i]) := by
  have hsource : (forced (us ++ [i])).getLast? = some i := by simp [hforce]
  rw [due, hsource]
  by_cases hnil : us = []
  · subst hnil
    simp [base, ordinary, hforce, updateEntry]
  · obtain ⟨source, b, hb, hentry⟩ := exists_base hnil
    rw [base_append_forced hforce hnil, hb, List.foldl_append, hentry]
    simp [updateEntry, merge, hforce]

/-- An ordinary update that is not the first takes ratios away that are not its own. -/
theorem foldl_append_ordinary (hforce : i.forceUpdateRatio = false) :
    (us ++ [i]).foldl updateEntry none = due (us ++ [i]) ↔
      ∀ source ∈ (forced us).getLast?, ordinary us = [] ∨ withRatiosOf source i = i := by
  have hforced : forced (us ++ [i]) = forced us := by simp [hforce]
  have hbase : base (us ++ [i]) = some i := base_append_ordinary hforce
  rw [List.foldl_append, due, hforced, hbase]
  by_cases hordinary : ordinary us = []
  · -- all updates before were forced
    simp only [hordinary, true_or, implies_true, iff_true]
    induction us using List.reverseRecOn with
    | nil => rfl
    | append_singleton us source _ =>
        have hsource : source.forceUpdateRatio = true := by
          by_contra hnot
          simp [hnot] at hordinary
        have hlast : (forced (us ++ [source])).getLast? = some source := by simp [hsource]
        have hne : us ++ [source] ≠ [] := by simp
        obtain ⟨source', b, hb, hentry⟩ := exists_base hne
        have hheld : b.forceUpdateRatio = true := (forceUpdateRatio_base hb).mpr hordinary
        have hdue : (us ++ [source]).foldl updateEntry none = _ := foldl_append_forced hsource
        rw [due, hlast, hb] at hdue
        rw [hlast, hdue]
        simp [updateEntry, merge, hforce, hheld, withRatiosOf]
  · have hnil : us ≠ [] := by
      rintro rfl
      exact hordinary rfl
    obtain ⟨source', b, hb, hentry⟩ := exists_base hnil
    have hheld : b.forceUpdateRatio = false := by
      by_contra hnot
      exact hordinary ((forceUpdateRatio_base hb).mp (by simpa using hnot))
    have hcopied : [i].foldl updateEntry (us.foldl updateEntry none) = some i := by
      simp [hentry, updateEntry, merge, hforce, hheld, withRatiosOf]
    rw [hcopied]
    cases hsource : (forced us).getLast? with
    | none => simp
    | some source => simp [hordinary, eq_comm]

/-- After every sequence of updates the instrument has the forced ratios and all else of the last
ordinary update, if none of those takes them away. -/
theorem updateInstruments_eq_due_iff (us : List InstrumentRecord) (hash : UInt32) :
    updateInstruments us (fun _ => none) hash = due (us.filter fun i => hashOf i = hash) ↔
      KeepsRatios (us.filter fun i => hashOf i = hash) := by
  rw [updateInstruments_apply]
  generalize (us.filter fun i => hashOf i = hash) = us
  cases us using List.reverseRecOn with
  | nil => simp [KeepsRatios, due, base, forced, ordinary]
  | append_singleton us i =>
      by_cases hforce : i.forceUpdateRatio
      · rw [foldl_append_forced hforce]
        simp [KeepsRatios, hforce]
      · have hfalse : i.forceUpdateRatio = false := by simpa using hforce
        rw [foldl_append_ordinary hfalse]
        simp [KeepsRatios, hfalse, List.length_eq_zero_iff]

/-- An instrument with a margin ratio, that is brought by a forced or by an ordinary update. -/
def exampleInstrument (force : Bool) (longMarginRatio : ℚ) : InstrumentRecord where
  instrumentId := "600000"
  exchangeId := "SSE"
  instrumentType := .Stock
  contractMultiplier := 1
  deliveryYear := 0
  forceUpdateRatio := force
  longMarginRatio := longMarginRatio
  shortMarginRatio := 1
  conversionRate := 1
  exchangeRate := 1
  productId := []
  priceTick := 1 / 100
  openDate := ""
  createDate := ""
  expireDate := ""
  deliveryMonth := 0
  isTrading := true
  currencyType := .CNY

/-- A forced update and two ordinary ones. -/
def exampleUpdates : List InstrumentRecord :=
  [exampleInstrument true (1 / 2), exampleInstrument false 1, exampleInstrument false 1]

/-- The second ordinary update brings its own ratios. -/
theorem due_ne_of_secondOrdinary :
    updateInstruments exampleUpdates (fun _ => none) (hashInstrument "SSE" "600000") =
        some (exampleInstrument false 1) ∧
      due (exampleUpdates.filter fun i => hashOf i = hashInstrument "SSE" "600000") =
        some (exampleInstrument false (1 / 2)) ∧
      exampleInstrument false 1 ≠ exampleInstrument false (1 / 2) := by
  decide +kernel

end Ratios

end Kungfu.Wingchun
