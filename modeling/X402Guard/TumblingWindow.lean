/-
Windows that follow one another.  An item falls into the window that is open,
unless that one opened `span` or more before it: then the item opens the next
one.  The current window comes first.  An interval of `k` spans meets at most
`k + 1` of them.
-/
import Mathlib.Algebra.Order.Group.Defs
import Mathlib.Algebra.Order.Monoid.Canonical.Defs
import Mathlib.Algebra.Order.Monoid.Unbundled.Pow
import Mathlib.Data.List.Chain
import Mathlib.Order.Lattice
import X402Guard.SlidingWindow

namespace TumblingWindow

universe u v

structure Window (ι : Type u) (τ : Type v) where
  openedAt : τ
  items : List ι

variable {ι : Type u} {τ : Type v} [LinearOrder τ] [Add τ]
variable (time : ι → τ) (span : τ)

/-- Put an item into the window it falls into, once a window is open. -/
def put (item : ι) : List (Window ι τ) → List (Window ι τ)
  | [] => []
  | current :: past =>
      if current.openedAt + span ≤ time item then
        ⟨time item, [item]⟩ :: current :: past
      else { current with items := current.items ++ [item] } :: past

/-- Each window opened `span` or more after the one before it. -/
def Spaced (windows : List (Window ι τ)) : Prop :=
  windows.IsChain fun later earlier => earlier.openedAt + span ≤ later.openedAt

theorem spaced_singleton (window : Window ι τ) : Spaced span [window] :=
  List.isChain_singleton window

theorem Spaced.put {windows : List (Window ι τ)} (h : Spaced span windows)
    (item : ι) : Spaced span (put time span item windows) := by
  unfold Spaced at h ⊢
  cases windows with
  | nil => exact h
  | cons current past =>
      by_cases hlong : current.openedAt + span ≤ time item
      · rw [TumblingWindow.put, if_pos hlong, List.isChain_cons_cons]
        exact ⟨hlong, h⟩
      · rw [TumblingWindow.put, if_neg hlong]
        rw [List.isChain_cons] at h ⊢
        exact h

/-- Every window but the current one was there before. -/
theorem head?_or_mem_of_put {item : ι} {windows : List (Window ι τ)}
    {window : Window ι τ} (h : window ∈ put time span item windows) :
    (put time span item windows).head? = some window ∨ window ∈ windows := by
  cases windows with
  | nil => exact absurd h List.not_mem_nil
  | cons current past =>
      by_cases hlong : current.openedAt + span ≤ time item
      · rw [put, if_pos hlong] at h ⊢
        rcases List.mem_cons.mp h with rfl | hold
        · exact Or.inl rfl
        · exact Or.inr hold
      · rw [put, if_neg hlong] at h ⊢
        rcases List.mem_cons.mp h with rfl | hold
        · exact Or.inl rfl
        · exact Or.inr (List.mem_cons_of_mem current hold)

/-- Every item of the window is dated within `span` of its opening. -/
def Window.Holds (window : Window ι τ) : Prop :=
  ∀ item ∈ window.items,
    window.openedAt ≤ time item ∧ time item < window.openedAt + span

/-- The new item is one more, wherever it falls. -/
theorem put_perm (item : ι) (current : Window ι τ)
    (past : List (Window ι τ)) :
    ((put time span item (current :: past)).flatMap Window.items).Perm
      ((current :: past).flatMap Window.items ++ [item]) := by
  by_cases hlong : current.openedAt + span ≤ time item
  · rw [put, if_pos hlong]
    exact (List.perm_append_singleton item _).symm
  · rw [put, if_neg hlong]
    simp only [List.flatMap_cons, List.append_assoc]
    exact List.perm_append_comm.append_left current.items

/-- An item dated after the current window opened falls where it belongs. -/
theorem put_holds {item : ι} {current : Window ι τ} {past : List (Window ι τ)}
    (h : ∀ window ∈ current :: past, window.Holds time span)
    (hafter : current.openedAt ≤ time item)
    (hspan : time item < time item + span) :
    ∀ window ∈ put time span item (current :: past),
      window.Holds time span := by
  by_cases hlong : current.openedAt + span ≤ time item
  · rw [put, if_pos hlong, List.forall_mem_cons]
    refine ⟨fun other hother => ?_, h⟩
    rw [List.mem_singleton.mp hother]
    exact ⟨le_rfl, hspan⟩
  · rw [put, if_neg hlong, List.forall_mem_cons]
    rw [List.forall_mem_cons] at h
    refine ⟨fun other hother => ?_, h.2⟩
    rcases List.mem_append.mp hother with hold | hnew
    · exact h.1 other hold
    · rw [List.mem_singleton.mp hnew]
      exact ⟨hafter, not_le.mp hlong⟩

end TumblingWindow

namespace TumblingWindow

universe w

variable {ι : Type u} {τ : Type v} {M : Type w}
variable [AddCommGroup τ] [LinearOrder τ] [IsOrderedAddMonoid τ]
variable {time : ι → τ} {span : τ}

/-- Windows opened after `low` open the later, the more of them there are. -/
theorem Spaced.openedAt_lt {current : Window ι τ} {past : List (Window ι τ)}
    {low : τ} (h : Spaced span (current :: past))
    (hlow : ∀ window ∈ current :: past, low < window.openedAt) :
    low + past.length • span < current.openedAt := by
  induction past generalizing current with
  | nil => simpa using hlow current List.mem_cons_self
  | cons earlier past ih =>
      rw [Spaced, List.isChain_cons_cons] at h
      have hbefore := ih h.2 fun window hwindow =>
        hlow window (List.mem_cons_of_mem current hwindow)
      rw [List.length_cons, succ_nsmul, ← add_assoc]
      exact (add_lt_add_left hbefore span).trans_le h.1

/-- At most `k` windows open in an interval of `k` spans. -/
theorem Spaced.length_le {windows : List (Window ι τ)} {k : ℕ}
    (h : Spaced span windows) (low : τ) (hspan : 0 ≤ span)
    (hlow : ∀ window ∈ windows, low < window.openedAt)
    (hhigh : ∀ window ∈ windows, window.openedAt ≤ low + k • span) :
    windows.length ≤ k := by
  cases windows with
  | nil => exact Nat.zero_le k
  | cons current past =>
      have hlt := (h.openedAt_lt hlow).trans_le
        (hhigh current List.mem_cons_self)
      rw [List.length_cons, Nat.succ_le_iff]
      by_contra hle
      exact absurd (nsmul_le_nsmul_left hspan (Nat.not_lt.mp hle))
        (not_le.mpr (lt_of_add_lt_add_left hlt))

/-- The windows that an interval of `k` spans up to `t` meets. -/
def meeting (span t : τ) (k : ℕ) (windows : List (Window ι τ)) :
    List (Window ι τ) :=
  windows.filter fun window =>
    t - (k + 1) • span < window.openedAt ∧ window.openedAt ≤ t

theorem Spaced.length_meeting_le {windows : List (Window ι τ)}
    (h : Spaced span windows) (hspan : 0 ≤ span) (t : τ) (k : ℕ) :
    (meeting span t k windows).length ≤ k + 1 := by
  have hearlier : ∀ {later middle earlier : Window ι τ},
      middle.openedAt + span ≤ later.openedAt →
      earlier.openedAt + span ≤ middle.openedAt →
      earlier.openedAt + span ≤ later.openedAt := fun hlater hmiddle =>
    hmiddle.trans ((le_add_of_nonneg_right hspan).trans hlater)
  have htrans : IsTrans (Window ι τ) fun later earlier =>
      earlier.openedAt + span ≤ later.openedAt := ⟨fun _ _ _ => hearlier⟩
  have hspaced : Spaced span (meeting span t k windows) :=
    ((List.isChain_iff_pairwise.mp h).filter _).isChain
  refine hspaced.length_le (t - (k + 1) • span) hspan ?_ ?_
  · intro window hwindow
    exact (of_decide_eq_true (List.mem_filter.mp hwindow).2).1
  · intro window hwindow
    rw [sub_add_cancel]
    exact (of_decide_eq_true (List.mem_filter.mp hwindow).2).2

/-- A window that the interval does not meet has nothing in it. -/
theorem windowSum_eq_zero [AddCommMonoid M] {amount : ι → M}
    {window : Window ι τ} {t : τ} {k : ℕ}
    (hholds : window.Holds time span)
    (h : ¬ (t - (k + 1) • span < window.openedAt ∧ window.openedAt ≤ t)) :
    SlidingWindow.windowSum time (k • span) amount t window.items = 0 := by
  have hnone : window.items.filter (fun item =>
      decide (t < time item + k • span ∧ time item ≤ t)) = [] := by
    rw [List.filter_eq_nil_iff]
    intro item hitem hcounted
    obtain ⟨hlate, hearly⟩ := of_decide_eq_true hcounted
    obtain ⟨hopened, hshort⟩ := hholds item hitem
    refine h ⟨?_, hopened.trans hearly⟩
    rw [sub_lt_iff_lt_add, succ_nsmul, add_comm (k • span), ← add_assoc]
    exact hlate.trans (add_lt_add_left hshort _)
  rw [SlidingWindow.windowSum, hnone]
  rfl

section Sum

variable [AddCommMonoid M] [PartialOrder M] [IsOrderedAddMonoid M]
variable [CanonicallyOrderedAdd M] {amount : ι → M} {cap : M}

/-- Only the windows that the interval meets count, each at most in full. -/
theorem windowSum_le_meeting {windows : List (Window ι τ)}
    (hholds : ∀ window ∈ windows, window.Holds time span)
    (hcap : ∀ window ∈ windows, (window.items.map amount).sum ≤ cap)
    (t : τ) (k : ℕ) :
    SlidingWindow.windowSum time (k • span) amount t
        (windows.flatMap Window.items) ≤
      (meeting span t k windows).length • cap := by
  induction windows with
  | nil => simp [meeting]
  | cons window past ih =>
      have hpast := ih (fun other hother => hholds other (.tail _ hother))
        fun other hother => hcap other (.tail _ hother)
      rw [List.flatMap_cons, SlidingWindow.windowSum_append]
      by_cases hmeets : t - (k + 1) • span < window.openedAt ∧
          window.openedAt ≤ t
      · rw [meeting, List.filter_cons, if_pos (decide_eq_true hmeets),
          List.length_cons, succ_nsmul, add_comm]
        refine add_le_add hpast (le_trans ?_ (hcap window (.head _)))
        exact (List.filter_sublist.map amount).sum_le_sum fun _ _ => zero_le
      · have hzero : SlidingWindow.windowSum time (k • span) amount t
            window.items = 0 := windowSum_eq_zero (hholds window (.head _)) hmeets
        rw [meeting, List.filter_cons, if_neg (by simpa using hmeets), hzero,
          zero_add]
        exact hpast

/-- An interval of `k` spans sees at most `k + 1` times what one window
may hold. -/
theorem Spaced.windowSum_le {windows : List (Window ι τ)}
    (h : Spaced span windows) (hspan : 0 ≤ span)
    (hholds : ∀ window ∈ windows, window.Holds time span)
    (hcap : ∀ window ∈ windows, (window.items.map amount).sum ≤ cap)
    (t : τ) (k : ℕ) :
    SlidingWindow.windowSum time (k • span) amount t
        (windows.flatMap Window.items) ≤ (k + 1) • cap :=
  (windowSum_le_meeting hholds hcap t k).trans
    (nsmul_le_nsmul_left (zero_le) (h.length_meeting_le hspan t k))

end Sum

end TumblingWindow
