import Mathlib.Data.List.Nodup
import Mathlib.Data.List.Sort

/-!
# Tables with a primary key

A table is a list of rows whose keys are distinct, the order of the list being the order the rows were committed in. A row keeps its
key for good, so an update is a function on rows that keeps the key, and a row before an update is compared with the row of the
same key after it.
-/

/-- The rows of a table, with distinct keys. -/
structure Table {Row Key : Type*} (key : Row → Key) where
  rows : List Row
  keys_nodup : (rows.map key).Nodup

namespace Table

variable {Row Key : Type*} {key : Row → Key}

/-- A table without rows. -/
def empty : Table key :=
  { rows := [], keys_nodup := List.nodup_nil }

/-- The rows that meet a condition, in commit order. -/
def select (t : Table key) (p : Row → Bool) : List Row :=
  t.rows.filter p

/-- The rows that meet a condition, in the order of a relation. -/
def selectBy (t : Table key) (le : Row → Row → Prop) [DecidableRel le] (p : Row → Bool) : List Row :=
  (t.select p).insertionSort le

/-- Add a row whose key is new. -/
def insert (t : Table key) (r : Row) (h : key r ∉ t.rows.map key) : Table key where
  rows := t.rows ++ [r]
  keys_nodup := by
    rw [List.map_append, List.map_singleton]
    exact t.keys_nodup.append (List.nodup_singleton _) (by simpa using h)

/-- A function that keeps the key of the rows it changes keeps the keys. -/
theorem map_update_keys (rows : List Row) {p : Row → Bool} {f : Row → Row} (hf : ∀ r, key (f r) = key r) :
    (rows.map fun r => if p r then f r else r).map key = rows.map key := by
  rw [List.map_map]
  refine List.map_congr_left fun r _ => ?_
  simp only [Function.comp_apply]
  split
  · exact hf r
  · rfl

/-- Update the rows that meet a condition by a function that keeps the key. -/
def updateWhere (t : Table key) (p : Row → Bool) (f : Row → Row) (hf : ∀ r, key (f r) = key r) : Table key where
  rows := t.rows.map fun r => if p r then f r else r
  keys_nodup := by
    rw [map_update_keys t.rows hf]
    exact t.keys_nodup

/-- Delete the rows that meet a condition. -/
def deleteWhere (t : Table key) (p : Row → Bool) : Table key where
  rows := t.rows.filter fun r => !p r
  keys_nodup := t.keys_nodup.sublist (List.Sublist.map key List.filter_sublist)

@[simp] theorem mem_deleteWhere {t : Table key} {p : Row → Bool} {r : Row} :
    r ∈ (t.deleteWhere p).rows ↔ r ∈ t.rows ∧ p r = false := by
  simp [deleteWhere]

@[simp] theorem mem_select {t : Table key} {p : Row → Bool} {r : Row} : r ∈ t.select p ↔ r ∈ t.rows ∧ p r = true :=
  List.mem_filter

@[simp] theorem mem_selectBy {t : Table key} {le : Row → Row → Prop} [DecidableRel le] {p : Row → Bool} {r : Row} :
    r ∈ t.selectBy le p ↔ r ∈ t.rows ∧ p r = true := by
  rw [selectBy, List.mem_insertionSort, mem_select]

@[simp] theorem mem_insert {t : Table key} {r r' : Row} {h : key r ∉ t.rows.map key} :
    r' ∈ (t.insert r h).rows ↔ r' ∈ t.rows ∨ r' = r := by
  simp [insert]

/-- Two rows of one key are one row. -/
theorem eq_of_key_eq {t : Table key} {r r' : Row} (hr : r ∈ t.rows) (hr' : r' ∈ t.rows) (h : key r = key r') : r = r' :=
  List.inj_on_of_nodup_map t.keys_nodup hr hr' h

/-- A row after an update comes from the row of its key before it. -/
theorem mem_updateWhere {t : Table key} {p : Row → Bool} {f : Row → Row} {hf : ∀ r, key (f r) = key r} {r' : Row} :
    r' ∈ (t.updateWhere p f hf).rows ↔ ∃ r ∈ t.rows, r' = if p r then f r else r := by
  rw [updateWhere, List.mem_map]
  constructor
  · rintro ⟨r, hr, rfl⟩
    exact ⟨r, hr, rfl⟩
  · rintro ⟨r, hr, rfl⟩
    exact ⟨r, hr, rfl⟩

/-- The row after an update is the updated row before it. -/
theorem updateWhere_eq {t : Table key} {p : Row → Bool} {f : Row → Row} {hf : ∀ r, key (f r) = key r} {r r' : Row}
    (hr : r ∈ t.rows) (hr' : r' ∈ (t.updateWhere p f hf).rows) (h : key r = key r') : r' = if p r then f r else r := by
  obtain ⟨r₀, hr₀, rfl⟩ := mem_updateWhere.mp hr'
  have hkey : key r₀ = key r := by
    rw [h]
    split
    · exact (hf r₀).symm
    · rfl
  rw [eq_of_key_eq hr₀ hr hkey]

/-- A selection after an insertion. -/
theorem select_insert (t : Table key) {q : Row → Bool} {r : Row} {h : key r ∉ t.rows.map key} (hq : q r = false) :
    (t.insert r h).select q = t.select q := by
  simp [select, insert, hq]

/-- An update of rows that a selection leaves out, before and after the update, does not change the selection. -/
theorem select_updateWhere {t : Table key} {p q : Row → Bool} {f : Row → Row} {hf : ∀ r, key (f r) = key r}
    (h : ∀ r ∈ t.rows, p r = true → q r = false ∧ q (f r) = false) : (t.updateWhere p f hf).select q = t.select q := by
  simp only [select, updateWhere, List.filter_map]
  have hfilter : t.rows.filter (q ∘ fun r => if p r then f r else r) = t.rows.filter q := by
    refine List.filter_congr fun r hr => ?_
    simp only [Function.comp_apply]
    split
    · next hp => rw [(h r hr hp).1, (h r hr hp).2]
    · rfl
  rw [hfilter]
  conv_rhs => rw [← List.map_id (t.rows.filter q)]
  refine List.map_congr_left fun r hr => ?_
  obtain ⟨hr, hq⟩ := List.mem_filter.mp hr
  split
  · next hp => exact absurd hq (by rw [(h r hr hp).1]; simp)
  · rfl

/-- An update keeps the keys of the table. -/
theorem updateWhere_keys (t : Table key) {p : Row → Bool} {f : Row → Row} (hf : ∀ r, key (f r) = key r) :
    (t.updateWhere p f hf).rows.map key = t.rows.map key :=
  map_update_keys t.rows hf

end Table
