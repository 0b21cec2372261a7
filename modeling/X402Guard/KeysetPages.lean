/-
Pages of rows in descending order of a key.  A cursor names a row, and what
comes after it is found by comparing keys; each page is read with one row more
than it shows, to tell whether another page follows.
-/
import Mathlib.Data.List.Sort
import Mathlib.Data.Prod.Lex

namespace KeysetPages

universe u v

variable {Row : Type u} {Key : Type v} [LinearOrder Key] (key : Row → Key)

/-- The rows with the greatest key first. -/
def descending (rows : List Row) : List Row :=
  rows.insertionSort fun first second => key second ≤ key first

/-- No two rows share a key, and each key is less than those before it. -/
def Descends (rows : List Row) : Prop :=
  rows.Pairwise fun first second => key second < key first

theorem descending_perm (rows : List Row) :
    (descending key rows).Perm rows :=
  List.perm_insertionSort _ rows

variable {key}

theorem Descends.filter {rows : List Row} (h : Descends key rows)
    (p : Row → Bool) : Descends key (rows.filter p) :=
  List.Pairwise.filter p h

/-- A list of rows in descending order is determined by its rows. -/
theorem Descends.eq_of_perm {first second : List Row}
    (hfirst : Descends key first) (hsecond : Descends key second)
    (hperm : first.Perm second) : first = second := by
  refine List.Perm.eq_of_pairwise ?_ hfirst hsecond hperm
  intro a b _ _ hab hba
  exact absurd hba hab.asymm

/-- Rows with distinct keys are sorted strictly. -/
theorem descends_descending {rows : List Row} (h : (rows.map key).Nodup) :
    Descends key (descending key rows) := by
  have hsorted : (descending key rows).Pairwise
      fun first second => key second ≤ key first := by
    have : Std.Total fun first second : Row => key second ≤ key first :=
      ⟨fun first second => le_total (key second) (key first)⟩
    have : IsTrans Row fun first second => key second ≤ key first :=
      ⟨fun _ _ _ hab hbc => hbc.trans hab⟩
    exact List.pairwise_insertionSort _ rows
  have hnodup : ((descending key rows).map key).Nodup :=
    ((descending_perm key rows).map key).nodup_iff.mpr h
  have hne := List.pairwise_map.mp hnodup
  exact (hsorted.and hne).imp fun hle => lt_of_le_of_ne hle.1 hle.2.symm

/-- It is the same to filter before sorting and after. -/
theorem filter_descending {rows : List Row} (h : (rows.map key).Nodup)
    (p : Row → Bool) :
    (descending key rows).filter p = descending key (rows.filter p) := by
  have hsub : ((rows.filter p).map key).Nodup :=
    h.sublist (List.filter_sublist.map key)
  apply ((descends_descending h).filter p).eq_of_perm
    (descends_descending hsub)
  exact ((descending_perm key rows).filter p).trans
    (descending_perm key _).symm

/-- The rows below the key of the row at `i` are those after it. -/
theorem Descends.filter_lt_getElem {rows : List Row} (h : Descends key rows)
    {i : Nat} (hi : i < rows.length) :
    (rows.filter fun row => decide (key row < key rows[i])) =
      rows.drop (i + 1) := by
  induction rows generalizing i with
  | nil => simp at hi
  | cons head tail ih =>
      obtain ⟨hhead, htail⟩ := List.pairwise_cons.mp h
      cases i with
      | zero =>
          simp only [List.getElem_cons_zero, Nat.zero_add, List.drop_succ_cons,
            List.drop_zero]
          rw [List.filter_cons_of_neg (by simp), List.filter_eq_self]
          intro row hrow
          exact decide_eq_true (hhead row hrow)
      | succ i =>
          have hi' : i < tail.length := by simpa using hi
          have hlt := hhead tail[i] (List.getElem_mem hi')
          simp only [List.getElem_cons_succ, List.drop_succ_cons]
          rw [List.filter_cons_of_neg (by simpa using hlt.le)]
          exact ih htail hi'

/-- Rows at different positions are different. -/
theorem Descends.getElem_inj {rows : List Row} (h : Descends key rows)
    {i j : Nat} (hi : i < rows.length) (hj : j < rows.length) :
    rows[i] = rows[j] ↔ i = j := by
  have hnodup : rows.Nodup := by
    refine List.Pairwise.imp ?_ h
    rintro first second hlt rfl
    exact lt_irrefl _ hlt
  exact hnodup.getElem_inj_iff

end KeysetPages
