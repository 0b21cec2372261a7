/-
Natural numbers as binary64.  A double has 53 significant bits: a number becomes
the double nearest to it, the even one of two that are equally near, and is
infinite when the exponent no longer fits.
-/
import Mathlib.Data.Nat.Dist
import Mathlib.Data.Nat.Log
import Mathlib.Tactic.Ring

namespace Doubles

/-- The distance between the doubles around a number. -/
def ulp (n : ℕ) : ℕ := 2 ^ (n.log2 - 52)

/-- The double that a number is rounded to, were the exponent unbounded. -/
def rounded (n : ℕ) : ℕ :=
  if ulp n < 2 * (n % ulp n) ∨
      2 * (n % ulp n) = ulp n ∧ n / ulp n % 2 = 1 then
    (n / ulp n + 1) * ulp n
  else n / ulp n * ulp n

/-- The doubles that a natural number can become. -/
inductive Double
  | finite (value : ℕ)
  | infinity

def Double.ofNat (n : ℕ) : Double :=
  if (rounded n).log2 < 1024 then .finite (rounded n) else .infinity

/-- At most 53 significant bits. -/
def IsDouble (m : ℕ) : Prop :=
  ∃ significand exponent, significand < 2 ^ 53 ∧
    m = significand * 2 ^ exponent

/-- A double such that no other is closer to the number. -/
structure Nearest (value n : ℕ) : Prop where
  isDouble : IsDouble value
  closest : ∀ m, IsDouble m → Nat.dist n value ≤ Nat.dist n m

section Rounding

variable {n m value : ℕ}

theorem isDouble_two_pow (exponent : ℕ) : IsDouble (2 ^ exponent) :=
  ⟨1, exponent, by decide, (one_mul _).symm⟩

theorem isDouble_of_le (h : n ≤ 2 ^ 53) : IsDouble n := by
  rcases Nat.lt_or_eq_of_le h with hlt | rfl
  · exact ⟨n, 0, hlt, (mul_one n).symm⟩
  · exact isDouble_two_pow 53

theorem ulp_pos (n : ℕ) : 0 < ulp n := Nat.two_pow_pos _

/-- The quotient is a significand. -/
theorem div_ulp_lt (n : ℕ) : n / ulp n < 2 ^ 53 := by
  have hpow : n < 2 ^ (n.log2 - 52) * 2 ^ 53 := by
    rw [← pow_add]
    exact Nat.lt_of_lt_of_le Nat.lt_log2_self
      (Nat.pow_le_pow_right (by decide) (by omega))
  exact Nat.div_lt_of_lt_mul hpow

/-- No double lies between the two around a number. -/
theorem IsDouble.outside (h : IsDouble m) (n : ℕ) :
    m ≤ n / ulp n * ulp n ∨ (n / ulp n + 1) * ulp n ≤ m := by
  obtain ⟨significand, exponent, hlt, rfl⟩ := h
  by_cases hexp : n.log2 - 52 ≤ exponent
  · -- a multiple of the distance
    obtain ⟨more, rfl⟩ := Nat.exists_eq_add_of_le hexp
    have hmul : significand * 2 ^ (n.log2 - 52 + more) =
        significand * 2 ^ more * ulp n := by
      rw [pow_add, ulp]
      ring
    rw [hmul]
    rcases Nat.lt_or_ge (n / ulp n) (significand * 2 ^ more) with hlt | hge
    · exact Or.inr (Nat.mul_le_mul_right _ hlt)
    · exact Or.inl (Nat.mul_le_mul_right _ hge)
  · -- too small to reach the leading bit
    left
    have hone : 2 ^ 52 * 2 ^ (n.log2 - 52) = 2 ^ n.log2 := by
      rw [← pow_add]
      congr 1
      omega
    have hne : n ≠ 0 := by
      rintro rfl
      exact hexp (Nat.zero_le _)
    have hquot : 2 ^ 52 ≤ n / ulp n := by
      rw [Nat.le_div_iff_mul_le (ulp_pos n), ulp, hone]
      exact Nat.log2_self_le hne
    calc significand * 2 ^ exponent
        ≤ 2 ^ 53 * 2 ^ exponent := Nat.mul_le_mul_right _ hlt.le
      _ = 2 ^ 52 * 2 ^ (exponent + 1) := by ring
      _ ≤ 2 ^ 52 * ulp n :=
          Nat.mul_le_mul_left _ (Nat.pow_le_pow_right (by decide) (by omega))
      _ ≤ n / ulp n * ulp n := Nat.mul_le_mul_right _ hquot

theorem isDouble_rounded (n : ℕ) : IsDouble (rounded n) := by
  have hlt := div_ulp_lt n
  unfold rounded
  split
  · rcases Nat.lt_or_eq_of_le (Nat.succ_le_of_lt hlt) with hnext | hnext
    · exact ⟨_, _, hnext, rfl⟩
    · refine ⟨1, 53 + (n.log2 - 52), by decide, ?_⟩
      rw [show n / ulp n + 1 = 2 ^ 53 from hnext, ulp, pow_add, one_mul]
  · exact ⟨_, _, hlt, rfl⟩

theorem nearest_rounded (n : ℕ) : Nearest (rounded n) n := by
  refine ⟨isDouble_rounded n, fun m hm => ?_⟩
  have houtside := hm.outside n
  have hsplit : n / ulp n * ulp n + n % ulp n = n := Nat.div_add_mod' n (ulp n)
  have hremainder := Nat.mod_lt n (ulp_pos n)
  rw [Nat.succ_mul] at houtside
  unfold rounded Nat.dist
  split
  · rw [Nat.succ_mul]
    omega
  · omega

/-- A number below a double is rounded to none above it. -/
theorem Nearest.le (h : Nearest value n) (hm : IsDouble m) (hle : n ≤ m) :
    value ≤ m := by
  have hclosest := h.closest m hm
  unfold Nat.dist at hclosest
  omega

/-- A double is the only one nearest to itself. -/
theorem Nearest.eq (h : Nearest value n) (hn : IsDouble n) : value = n := by
  have hclosest := h.closest n hn
  rw [Nat.dist_self] at hclosest
  exact (Nat.eq_of_dist_eq_zero (Nat.le_zero.mp hclosest)).symm

theorem Double.ofNat_eq_finite {exponent : ℕ} (h : n ≤ 2 ^ exponent)
    (hexponent : exponent < 1024) :
    Double.ofNat n = .finite (rounded n) := by
  have hle := (nearest_rounded n).le (isDouble_two_pow exponent) h
  have hlog : (rounded n).log2 ≤ exponent := by
    by_cases hzero : rounded n = 0
    · rw [hzero]
      exact Nat.zero_le _
    · refine Nat.le_of_lt_succ ((Nat.log2_lt hzero).mpr ?_)
      exact Nat.lt_of_le_of_lt hle (Nat.pow_lt_pow_succ (by decide))
  exact if_pos (Nat.lt_of_le_of_lt hlog hexponent)

end Rounding

/-- Above two to the 53rd, neighbours become equal. -/
example : (rounded 9007199254740993, rounded 9007199254740992) =
    (9007199254740992, 9007199254740992) := by decide

end Doubles
