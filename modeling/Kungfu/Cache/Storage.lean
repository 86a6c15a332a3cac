import Kungfu.Cache.Bank

/-!
# Databases

A database has a table for every cached type, and a table has one row for each primary key:
what was stored under it last.
-/

namespace Kungfu.Cache

open Longfist

variable {δ : Type}

/-- The rows of a type, by primary key; a row lies under its own. -/
abbrev Table (δ : Type) (t : StateDataType) :=
  AList fun key : PrimaryKey t => { data : Data δ t // data.key = key }

/-- A database. -/
abbrev Storage (δ : Type) := (t : StateDataType) → Table δ t

namespace Storage

def empty : Storage δ := fun _ => ∅

/-- `replace`. -/
def replace {t : StateDataType} (data : Data δ t) (storage : Storage δ) : Storage δ :=
  Function.update storage t ((storage t).insert data.key ⟨data, rfl⟩)

/-- `remove_all`. -/
def removeAll (t : StateDataType) (storage : Storage δ) : Storage δ := Function.update storage t ∅

end Storage

/-- A datum of a type with a timestamp is restored if it is of today. -/
def Fresh {t : StateDataType} (todayStart : Int64) (data : Data δ t) : Prop :=
  t.hasTimestamp → todayStart ≤ data.timestamp

instance {t : StateDataType} (todayStart : Int64) (data : Data δ t) :
    Decidable (Fresh todayStart data) :=
  inferInstanceAs (Decidable (_ → _))

/-- `time_spec::get_all`. -/
def Storage.getAll (t : StateDataType) (todayStart : Int64) (storage : Storage δ) :
    List (Data δ t) :=
  ((storage t).entries.map (·.2.1)).filter fun data => Fresh todayStart data

theorem mem_getAll {storage : Storage δ} {t : StateDataType} {todayStart : Int64}
    {data : Data δ t} :
    data ∈ storage.getAll t todayStart ↔
      ((storage t).lookup data.key).map (·.1) = some data ∧ Fresh todayStart data := by
  rw [Storage.getAll, List.mem_filter, decide_eq_true_eq, List.mem_map]
  refine and_congr_left fun _ => ?_
  rw [Option.map_eq_some_iff]
  constructor
  · rintro ⟨⟨key, row⟩, hentry, rfl⟩
    obtain ⟨data, rfl⟩ := row
    exact ⟨⟨data, rfl⟩, AList.mem_lookup_iff.mpr hentry, rfl⟩
  · rintro ⟨row, hrow, hdata⟩
    exact ⟨_, AList.mem_lookup_iff.mp hrow, hdata⟩

end Kungfu.Cache
