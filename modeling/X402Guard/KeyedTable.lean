/-
Tables of rows with a primary key.  That no two rows share a key is part of the
table, so a row is found under its key and an update touches one row.
-/
import Mathlib.Data.List.Nodup
import Mathlib.Algebra.BigOperators.Group.List.Basic
import Mathlib.Tactic.Abel

universe u v

/-- Rows in table order, pairwise distinct under `key`. -/
structure KeyedTable (Row : Type u) {Key : Type v} (key : Row → Key) where
  rows : List Row
  nodup : (rows.map key).Nodup

namespace KeyedTable

variable {Row : Type u} {Key : Type v} {key : Row → Key}

def empty : KeyedTable Row key := ⟨[], List.nodup_nil⟩

/-- `k` is the key of a row. -/
def HasKey (table : KeyedTable Row key) (k : Key) : Prop :=
  k ∈ table.rows.map key

instance [DecidableEq Key] (table : KeyedTable Row key) (k : Key) :
    Decidable (table.HasKey k) :=
  inferInstanceAs (Decidable (k ∈ table.rows.map key))

/-- The row stored under `k`. -/
def find? [DecidableEq Key] (table : KeyedTable Row key) (k : Key) :
    Option Row :=
  table.rows.find? fun row => decide (key row = k)

/-- Append a row whose key is new. -/
def insert (table : KeyedTable Row key) (row : Row)
    (hnew : ¬ table.HasKey (key row)) : KeyedTable Row key where
  rows := table.rows ++ [row]
  nodup := by
    rw [List.map_append, List.nodup_append]
    refine ⟨table.nodup, List.nodup_singleton _, ?_⟩
    intro k hk k' hk' heq
    rw [List.map_singleton, List.mem_singleton] at hk'
    exact hnew (hk' ▸ heq ▸ hk)

/-- Change every row by `f`, which may not touch keys. -/
def update (table : KeyedTable Row key) (f : Row → Row)
    (hkey : ∀ row, key (f row) = key row) : KeyedTable Row key where
  rows := table.rows.map f
  nodup := by
    rw [List.map_map, show key ∘ f = key from funext hkey]
    exact table.nodup

@[simp] theorem rows_insert (table : KeyedTable Row key) (row : Row)
    (hnew : ¬ table.HasKey (key row)) :
    (table.insert row hnew).rows = table.rows ++ [row] := rfl

@[simp] theorem rows_update (table : KeyedTable Row key) (f : Row → Row)
    (hkey : ∀ row, key (f row) = key row) :
    (table.update f hkey).rows = table.rows.map f := rfl

theorem hasKey_iff {table : KeyedTable Row key} {k : Key} :
    table.HasKey k ↔ ∃ row ∈ table.rows, key row = k :=
  List.mem_map

theorem hasKey_insert {table : KeyedTable Row key} {row : Row}
    (hnew : ¬ table.HasKey (key row)) {k : Key} :
    (table.insert row hnew).HasKey k ↔ table.HasKey k ∨ k = key row := by
  simp only [HasKey, rows_insert, List.map_append, List.map_singleton,
    List.mem_append, List.mem_singleton]

/-- Change the rows that satisfy `p`, as an UPDATE with a WHERE clause does. -/
def updateWhere (table : KeyedTable Row key) (p : Row → Prop)
    [DecidablePred p] (f : Row → Row) (hkey : ∀ row, key (f row) = key row) :
    KeyedTable Row key :=
  table.update (fun row => if p row then f row else row) <| by
    intro row
    split
    · exact hkey row
    · rfl

/-- The rows that satisfy `p`. -/
def selectWhere (table : KeyedTable Row key) (p : Row → Prop)
    [DecidablePred p] : List Row :=
  table.rows.filter fun row => decide (p row)

theorem mem_updateWhere {table : KeyedTable Row key} {p : Row → Prop}
    [DecidablePred p] {f : Row → Row} (hkey : ∀ row, key (f row) = key row)
    {row : Row} :
    row ∈ (table.updateWhere p f hkey).rows ↔
      ∃ old ∈ table.rows, (if p old then f old else old) = row :=
  List.mem_map

theorem mem_selectWhere {table : KeyedTable Row key} {p : Row → Prop}
    [DecidablePred p] {row : Row} :
    row ∈ table.selectWhere p ↔ row ∈ table.rows ∧ p row := by
  simp [selectWhere]

variable [DecidableEq Key]

theorem find?_eq_some_iff {table : KeyedTable Row key} {k : Key} {row : Row} :
    table.find? k = some row ↔ row ∈ table.rows ∧ key row = k := by
  constructor
  · intro h
    exact ⟨List.mem_of_find?_eq_some h, by
      simpa using List.find?_some h⟩
  · rintro ⟨hmem, rfl⟩
    obtain ⟨found, hfound⟩ : ∃ found, table.find? (key row) = some found := by
      apply Option.isSome_iff_exists.mp
      rw [find?, List.find?_isSome]
      exact ⟨row, hmem, by simp⟩
    have hkey : key found = key row := by
      simpa using List.find?_some hfound
    have hrow : found = row :=
      List.inj_on_of_nodup_map table.nodup
        (List.mem_of_find?_eq_some hfound) hmem hkey
    rw [hfound, hrow]

theorem find?_eq_none_iff {table : KeyedTable Row key} {k : Key} :
    table.find? k = none ↔ ¬ table.HasKey k := by
  simp [find?, hasKey_iff, List.find?_eq_none]

theorem find?_insert_of_find? {table : KeyedTable Row key} {row old : Row}
    (hnew : ¬ table.HasKey (key row)) {k : Key}
    (hold : table.find? k = some old) :
    (table.insert row hnew).find? k = some old := by
  rw [find?_eq_some_iff] at hold ⊢
  exact ⟨List.mem_append_left _ hold.1, hold.2⟩

/-- An update is seen through `find?`. -/
theorem find?_update {table : KeyedTable Row key} {f : Row → Row}
    (hkey : ∀ row, key (f row) = key row) {k : Key} :
    (table.update f hkey).find? k = (table.find? k).map f := by
  cases h : table.find? k with
  | none =>
      rw [Option.map_none, find?_eq_none_iff]
      rw [find?_eq_none_iff] at h
      simp only [HasKey, rows_update, List.map_map]
      rwa [show key ∘ f = key from funext hkey]
  | some row =>
      rw [Option.map_some]
      rw [find?_eq_some_iff] at h ⊢
      exact ⟨List.mem_map.mpr ⟨row, h.1, rfl⟩, (hkey row).trans h.2⟩

/-- An insertion is seen under the new key only. -/
theorem find?_insert {table : KeyedTable Row key} {row : Row}
    (hnew : ¬ table.HasKey (key row)) {k : Key} :
    (table.insert row hnew).find? k =
      if key row = k then some row else table.find? k := by
  split
  · rename_i hk
    rw [find?_eq_some_iff]
    exact ⟨by simp, hk⟩
  · rename_i hk
    cases h : table.find? k with
    | none =>
        rw [find?_eq_none_iff] at h ⊢
        rw [hasKey_insert]
        rintro (hmem | heq)
        · exact h hmem
        · exact hk heq.symm
    | some old => exact find?_insert_of_find? hnew h

/-- Put `row` in the place of the row with its key, if there is one. -/
def replace (table : KeyedTable Row key) (row : Row) : KeyedTable Row key :=
  table.update (fun old => if key old = key row then row else old) <| by
    intro old
    split
    · rename_i h
      exact h.symm
    · rfl

theorem find?_replace {table : KeyedTable Row key} {row : Row} {k : Key} :
    (table.replace row).find? k =
      if key row = k then (table.find? k).map fun _ => row
      else table.find? k := by
  rw [replace, find?_update]
  cases h : table.find? k with
  | none => simp
  | some old =>
      have hold := (find?_eq_some_iff.mp h).2
      subst hold
      by_cases hk : key row = key old
      · simp [hk]
      · simp [hk, Ne.symm hk]

/-- Remove the row with the key `k`, if there is one. -/
def erase (table : KeyedTable Row key) (k : Key) : KeyedTable Row key where
  rows := table.rows.filter fun row => decide (key row ≠ k)
  nodup := table.nodup.sublist (List.filter_sublist.map key)

theorem find?_erase {table : KeyedTable Row key} {k k' : Key} :
    (table.erase k).find? k' = if k' = k then none else table.find? k' := by
  split
  · rename_i heq
    rw [find?_eq_none_iff, hasKey_iff]
    rintro ⟨row, hrow, rfl⟩
    have hne := of_decide_eq_true (List.mem_filter.mp hrow).2
    exact hne heq
  · rename_i hne
    cases h : table.find? k' with
    | none =>
        rw [find?_eq_none_iff, hasKey_iff] at h ⊢
        rintro ⟨row, hrow, hkey⟩
        exact h ⟨row, (List.mem_filter.mp hrow).1, hkey⟩
    | some row =>
        rw [find?_eq_some_iff] at h ⊢
        refine ⟨List.mem_filter.mpr ⟨h.1, decide_eq_true ?_⟩, h.2⟩
        rw [h.2]
        exact hne

theorem find?_updateWhere {table : KeyedTable Row key} {p : Row → Prop}
    [DecidablePred p] {f : Row → Row} (hkey : ∀ row, key (f row) = key row)
    {k : Key} :
    (table.updateWhere p f hkey).find? k =
      (table.find? k).map fun row => if p row then f row else row :=
  find?_update _

/-- The row under a key stands alone among the others. -/
theorem exists_split {table : KeyedTable Row key} {k : Key} {row : Row}
    (h : table.find? k = some row) :
    ∃ before after, table.rows = before ++ row :: after ∧
      ∀ other ∈ before ++ after, key other ≠ k := by
  obtain ⟨hmem, rfl⟩ := find?_eq_some_iff.mp h
  obtain ⟨before, after, hrows⟩ := List.append_of_mem hmem
  refine ⟨before, after, hrows, ?_⟩
  have hnodup := table.nodup
  rw [hrows, List.map_append, List.map_cons, List.nodup_middle,
    List.nodup_cons, ← List.map_append] at hnodup
  intro other hother heq
  exact hnodup.1 (heq ▸ List.mem_map_of_mem hother)

section Sums

variable {M : Type*} [AddCommMonoid M]

/-- The sum of a quantity over all rows. -/
def sumOf (table : KeyedTable Row key) (f : Row → M) : M :=
  (table.rows.map f).sum

omit [DecidableEq Key] in
theorem sumOf_insert (f : Row → M) {table : KeyedTable Row key} {row : Row}
    (hnew : ¬ table.HasKey (key row)) :
    (table.insert row hnew).sumOf f = table.sumOf f + f row := by
  simp [sumOf]

/-- A replacement changes the sum by the new row minus the old one. -/
theorem sumOf_replace (f : Row → M) {table : KeyedTable Row key} (row : Row)
    {old : Row} (h : table.find? (key row) = some old) :
    (table.replace row).sumOf f + f old = table.sumOf f + f row := by
  obtain ⟨before, after, hrows, hothers⟩ := exists_split h
  have hold := (find?_eq_some_iff.mp h).2
  have hsame : ∀ other ∈ before ++ after,
      (if key other = key row then row else other) = other :=
    fun other hother => if_neg (hothers other hother)
  have hreplaced : (table.replace row).rows = before ++ row :: after := by
    rw [replace, rows_update, hrows, List.map_append, List.map_cons,
      if_pos hold]
    rw [List.map_congr_left fun other hother =>
        hsame other (List.mem_append_left _ hother),
      List.map_congr_left fun other hother =>
        hsame other (List.mem_append_right _ hother)]
    simp
  simp only [sumOf, hreplaced, hrows, List.map_append, List.map_cons,
    List.sum_append, List.sum_cons]
  abel

theorem sumOf_erase (f : Row → M) {table : KeyedTable Row key} {k : Key}
    {row : Row} (h : table.find? k = some row) :
    (table.erase k).sumOf f + f row = table.sumOf f := by
  obtain ⟨before, after, hrows, hothers⟩ := exists_split h
  have hrow := (find?_eq_some_iff.mp h).2
  have herased : (table.erase k).rows = before ++ after := by
    have hkept : (before ++ after).filter
        (fun other => decide (key other ≠ k)) = before ++ after := by
      rw [List.filter_eq_self]
      intro other hother
      exact decide_eq_true (hothers other hother)
    change table.rows.filter (fun other => decide (key other ≠ k)) = _
    rw [hrows, List.filter_append, List.filter_cons_of_neg (by simp [hrow]),
      ← List.filter_append]
    exact hkept
  simp only [sumOf, herased, hrows, List.map_append, List.map_cons,
    List.sum_append, List.sum_cons]
  abel

theorem sumOf_eq_zero {f : Row → M} {table : KeyedTable Row key}
    (h : ∀ row, table.find? (key row) = some row → f row = 0) :
    table.sumOf f = 0 := by
  apply List.sum_eq_zero
  intro quantity hquantity
  obtain ⟨row, hrow, rfl⟩ := List.mem_map.mp hquantity
  exact h row (find?_eq_some_iff.mpr ⟨hrow, rfl⟩)

end Sums

end KeyedTable
