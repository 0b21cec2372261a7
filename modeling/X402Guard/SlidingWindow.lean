/-
Sums of dated amounts over a window that slides with the clock.  `recentSum`
counts what is dated after the start of the window, `windowSum` counts the
half-open window ending at the given instant.
-/
import Mathlib.Algebra.BigOperators.Group.List.Basic
import Mathlib.Algebra.Order.BigOperators.Group.List
import Mathlib.Algebra.Order.Monoid.Unbundled.Basic
import Mathlib.Algebra.Order.Monoid.Defs

namespace SlidingWindow

universe u v w

variable {ι : Type u} {τ : Type v} {M : Type w}
variable [LinearOrder τ] [Add τ]
variable (time : ι → τ) (span : τ)

section Definitions

variable [AddCommMonoid M] (amount : ι → M)

/-- The amounts dated later than `span` before `now`. -/
def recentSum (now : τ) (items : List ι) : M :=
  ((items.filter fun item => decide (now < time item + span)).map amount).sum

/-- The amounts dated in the half-open interval of length `span` ending at
`now`. -/
def windowSum (now : τ) (items : List ι) : M :=
  ((items.filter fun item =>
    decide (now < time item + span ∧ time item ≤ now)).map amount).sum

@[simp] theorem recentSum_nil (now : τ) :
    recentSum time span amount now [] = 0 := rfl

@[simp] theorem windowSum_nil (now : τ) :
    windowSum time span amount now [] = 0 := rfl

theorem recentSum_append (now : τ) (first second : List ι) :
    recentSum time span amount now (first ++ second) =
      recentSum time span amount now first +
        recentSum time span amount now second := by
  simp [recentSum]

theorem windowSum_append (now : τ) (first second : List ι) :
    windowSum time span amount now (first ++ second) =
      windowSum time span amount now first +
        windowSum time span amount now second := by
  simp [windowSum]

/-- The order of the items does not matter. -/
theorem windowSum_perm {now : τ} {items items' : List ι}
    (h : items.Perm items') :
    windowSum time span amount now items =
      windowSum time span amount now items' :=
  ((h.filter _).map amount).sum_eq

/-- A later item is not yet in an earlier window. -/
theorem windowSum_snoc_of_lt {now : τ} {items : List ι} {item : ι}
    (h : now < time item) :
    windowSum time span amount now (items ++ [item]) =
      windowSum time span amount now items := by
  rw [windowSum_append]
  simp [windowSum, not_le.mpr h]

/-- Nothing recent sums to nothing. -/
theorem recentSum_eq_zero {now : τ} {items : List ι}
    (h : ∀ item ∈ items, time item + span ≤ now) :
    recentSum time span amount now items = 0 := by
  have hnone : items.filter (fun item => decide (now < time item + span)) =
      [] := by
    rw [List.filter_eq_nil_iff]
    intro item hitem
    simpa using h item hitem
  simp [recentSum, hnone]

/-- Amounts of one count the items. -/
theorem recentSum_one (now : τ) (items : List ι) :
    recentSum time span (fun _ => 1) now items =
      (items.filter fun item => decide (now < time item + span)).length := by
  simp [recentSum]

theorem windowSum_one (now : τ) (items : List ι) :
    windowSum time span (fun _ => 1) now items =
      (items.filter fun item =>
        decide (now < time item + span ∧ time item ≤ now)).length := by
  simp [windowSum]

end Definitions

section Order

variable [AddCommMonoid M] [PartialOrder M] [IsOrderedAddMonoid M]
variable {amount : ι → M}

theorem sum_filter_le_of_imp {items : List ι} {p q : ι → Bool}
    (hamount : ∀ item ∈ items, 0 ≤ amount item)
    (himp : ∀ item ∈ items, p item = true → q item = true) :
    ((items.filter p).map amount).sum ≤ ((items.filter q).map amount).sum := by
  induction items with
  | nil => simp
  | cons head tail ih =>
      have htail := ih
        (fun item hitem => hamount item (List.mem_cons_of_mem head hitem))
        (fun item hitem => himp item (List.mem_cons_of_mem head hitem))
      have hhead := hamount head List.mem_cons_self
      have hpq := himp head List.mem_cons_self
      cases hp : p head with
      | true =>
          rw [List.filter_cons_of_pos hp, List.filter_cons_of_pos (hpq hp)]
          simpa using add_le_add_right htail (amount head)
      | false =>
          rw [List.filter_cons_of_neg (by simp [hp])]
          cases hq : q head with
          | false => rwa [List.filter_cons_of_neg (by simp [hq])]
          | true =>
              rw [List.filter_cons_of_pos hq, List.map_cons, List.sum_cons]
              exact htail.trans (le_add_of_nonneg_left hhead)

/-- Fewer items have a smaller recent sum. -/
theorem recentSum_le_of_sublist {now : τ} {items items' : List ι}
    (hamount : ∀ item, 0 ≤ amount item) (h : items.Sublist items') :
    recentSum time span amount now items ≤
      recentSum time span amount now items' := by
  refine ((h.filter _).map amount).sum_le_sum ?_
  intro value hvalue
  obtain ⟨item, _, rfl⟩ := List.mem_map.mp hvalue
  exact hamount item

/-- As time passes the recent sum can only shrink. -/
theorem recentSum_antitone {now later : τ} {items : List ι}
    (hamount : ∀ item ∈ items, 0 ≤ amount item) (hle : now ≤ later) :
    recentSum time span amount later items ≤
      recentSum time span amount now items := by
  refine sum_filter_le_of_imp hamount fun item _ h => ?_
  rw [decide_eq_true_eq] at h ⊢
  exact hle.trans_lt h

theorem windowSum_le_recentSum {now : τ} {items : List ι}
    (hamount : ∀ item ∈ items, 0 ≤ amount item) :
    windowSum time span amount now items ≤
      recentSum time span amount now items := by
  refine sum_filter_le_of_imp hamount fun item _ h => ?_
  rw [decide_eq_true_eq] at h ⊢
  exact h.1

/-- One more item adds at most its own amount. -/
theorem recentSum_snoc_le {now : τ} {items : List ι} {item : ι}
    (hitem : 0 ≤ amount item) :
    recentSum time span amount now (items ++ [item]) ≤
      recentSum time span amount now items + amount item := by
  rw [recentSum_append]
  refine add_le_add_right ?_ _
  by_cases h : now < time item + span <;> simp [recentSum, h, hitem]

/-- An item that keeps the recent sum within the cap keeps every window within
it: the windows that end before the item do not count it, and the later ones
count less than the recent sum does. -/
theorem windowSum_snoc_le {items : List ι} {item : ι} {cap : M}
    (hamount : ∀ item, 0 ≤ amount item)
    (hcap : recentSum time span amount (time item) items + amount item ≤ cap)
    (hold : ∀ instant, windowSum time span amount instant items ≤ cap)
    (instant : τ) :
    windowSum time span amount instant (items ++ [item]) ≤ cap := by
  rcases lt_or_ge instant (time item) with hbefore | hafter
  · rw [windowSum_snoc_of_lt time span amount hbefore]
    exact hold instant
  · calc
      windowSum time span amount instant (items ++ [item])
          ≤ recentSum time span amount instant (items ++ [item]) :=
        windowSum_le_recentSum time span fun item _ => hamount item
      _ ≤ recentSum time span amount (time item) (items ++ [item]) :=
        recentSum_antitone time span (fun item _ => hamount item) hafter
      _ ≤ recentSum time span amount (time item) items + amount item :=
        recentSum_snoc_le time span (hamount item)
      _ ≤ cap := hcap

end Order

end SlidingWindow
