/-
Positional notation, most significant digit first.  A list of digits is
rewritten in another base as bytes are written as text: the number changes its
base, and the zeros in front of it are carried over one by one.
-/
import Mathlib.Data.Nat.Digits.Lemmas

namespace PositionalNotation

variable {base base' : ℕ}

/-- The number that the digits denote. -/
def value (base : ℕ) (digits : List ℕ) : ℕ :=
  Nat.ofDigits base digits.reverse

/-- The digits of a number, the first of them not zero. -/
def digits (base n : ℕ) : List ℕ := (Nat.digits base n).reverse

@[simp] theorem value_nil : value base [] = 0 := rfl

theorem value_cons (d : ℕ) (ds : List ℕ) :
    value base (d :: ds) = d * base ^ ds.length + value base ds := by
  rw [value, Nat.ofDigits_reverse_cons, value, Nat.mul_comm, Nat.add_comm]

theorem value_snoc (ds : List ℕ) (d : ℕ) :
    value base (ds ++ [d]) = value base ds * base + d := by
  rw [value, List.reverse_append, List.reverse_singleton,
    List.singleton_append, Nat.ofDigits_cons, value, Nat.mul_comm,
    Nat.add_comm]

theorem value_append (ds es : List ℕ) :
    value base (ds ++ es) =
      value base ds * base ^ es.length + value base es := by
  rw [value, List.reverse_append, Nat.ofDigits_append, List.length_reverse,
    value, value, Nat.mul_comm, Nat.add_comm]

theorem value_lt {ds : List ℕ} (hbase : 1 < base) (h : ∀ d ∈ ds, d < base) :
    value base ds < base ^ ds.length := by
  rw [value, ← List.length_reverse]
  exact Nat.ofDigits_lt_base_pow_length hbase fun d hd =>
    h d (List.mem_reverse.mp hd)

theorem le_value_cons {d : ℕ} {ds : List ℕ} (hd : d ≠ 0) :
    base ^ ds.length ≤ value base (d :: ds) := by
  rw [value_cons]
  exact Nat.le_add_right_of_le
    (Nat.le_mul_of_pos_left _ (Nat.pos_of_ne_zero hd))

@[simp] theorem value_digits (n : ℕ) : value base (digits base n) = n := by
  rw [value, digits, List.reverse_reverse, Nat.ofDigits_digits]

theorem digits_lt (hbase : 1 < base) {n d : ℕ} (h : d ∈ digits base n) :
    d < base :=
  Nat.digits_lt_base hbase (List.mem_reverse.mp h)

@[simp] theorem digits_zero : digits base 0 = [] := by
  simp [digits]

/-- The digits of a positive number are those of its quotient and its
remainder. -/
theorem digits_of_pos (hbase : 1 < base) {n : ℕ} (h : 0 < n) :
    digits base n = digits base (n / base) ++ [n % base] := by
  rw [digits, Nat.digits_def' hbase h, List.reverse_cons, digits]

theorem head?_digits_ne_zero (base n : ℕ) :
    (digits base n).head? ≠ some 0 := by
  by_cases hzero : n = 0
  · subst hzero
    simp
  · have hnil := Nat.digits_ne_nil_iff_ne_zero (b := base).mpr hzero
    rw [digits, List.head?_reverse, List.getLast?_eq_getLast_of_ne_nil hnil]
    intro h
    exact Nat.getLast_digit_ne_zero base hzero (Option.some.inj h)

/-- Digits without a zero in front are the digits of their number. -/
theorem digits_value (hbase : 1 < base) {ds : List ℕ}
    (h : ∀ d ∈ ds, d < base) (hhead : ds.head? ≠ some 0) :
    digits base (value base ds) = ds := by
  have hlast : ∀ hne : ds.reverse ≠ [], ds.reverse.getLast hne ≠ 0 := by
    intro hne hzero
    rw [List.getLast_reverse] at hzero
    apply hhead
    rw [List.head?_eq_some_head (by simpa using hne), hzero]
  rw [digits, value, Nat.digits_ofDigits base hbase _ (by simpa using h)
    hlast, List.reverse_reverse]

/-- Digits with no zero in front stay so when their number does not shrink. -/
theorem head?_ne_zero_of_le (hbase : 1 < base) {ds es : List ℕ}
    (hlength : es.length = ds.length) (hes : ∀ e ∈ es, e < base)
    (hhead : ds.head? ≠ some 0) (hle : value base ds ≤ value base es) :
    es.head? ≠ some 0 := by
  cases ds with
  | nil =>
      rw [List.length_eq_zero_iff.mp hlength]
      simp
  | cons d ds =>
      cases es with
      | nil => simp at hlength
      | cons e es =>
          have hd : d ≠ 0 := by simpa using hhead
          have hlow : base ^ ds.length ≤ value base (d :: ds) :=
            le_value_cons hd
          have hsame : es.length = ds.length := by simpa using hlength
          rintro ⟨⟩
          have hzero : value base (0 :: es) = value base es := by
            rw [value_cons, Nat.zero_mul, Nat.zero_add]
          have hhigh := value_lt hbase fun e he =>
            hes e (List.mem_cons_of_mem 0 he)
          rw [hsame] at hhigh
          omega

theorem digits_ne_nil {n : ℕ} (h : n ≠ 0) : digits base n ≠ [] := by
  intro hnil
  have hvalue : value base (digits base n) = n := value_digits n
  rw [hnil] at hvalue
  exact h hvalue.symm

/-- The same with the digits of a carry in front. -/
theorem head?_carry_ne_zero (hbase : 1 < base) {ds es : List ℕ} {carry : ℕ}
    (hlength : es.length = ds.length) (hes : ∀ e ∈ es, e < base)
    (hhead : ds.head? ≠ some 0)
    (hle : value base ds ≤ value base (digits base carry ++ es)) :
    (digits base carry ++ es).head? ≠ some 0 := by
  by_cases hcarry : carry = 0
  · -- without a carry the number has kept its length
    rw [hcarry, digits_zero, List.nil_append] at hle ⊢
    exact head?_ne_zero_of_le hbase hlength hes hhead hle
  · rw [List.head?_append_of_ne_nil _ (digits_ne_nil hcarry)]
    exact head?_digits_ne_zero base carry

def leadingZeros (ds : List ℕ) : ℕ := (ds.takeWhile (· = 0)).length

theorem leadingZeros_replicate_append {ds : List ℕ}
    (hhead : ds.head? ≠ some 0) (zeros : ℕ) :
    leadingZeros (List.replicate zeros 0 ++ ds) = zeros := by
  induction zeros with
  | zero =>
      cases ds with
      | nil => rfl
      | cons d ds =>
          have hd : d ≠ 0 := by simpa using hhead
          simp [leadingZeros, hd]
  | succ zeros ih =>
      rw [List.replicate_succ, List.cons_append, leadingZeros,
        List.takeWhile_cons_of_pos (by simp), List.length_cons]
      exact congrArg (· + 1) ih

@[simp] theorem value_replicate_append (zeros : ℕ) (ds : List ℕ) :
    value base (List.replicate zeros 0 ++ ds) = value base ds := by
  rw [value_append, value, List.reverse_replicate,
    Nat.ofDigits_replicate_zero, Nat.zero_mul, Nat.zero_add]

/-- A list is its zeros in front and a rest without. -/
theorem exists_eq_replicate_append (ds : List ℕ) :
    ∃ rest, ds = List.replicate (leadingZeros ds) 0 ++ rest ∧
      rest.head? ≠ some 0 := by
  induction ds with
  | nil => exact ⟨[], rfl, by simp⟩
  | cons d ds ih =>
      by_cases hd : d = 0
      · obtain ⟨rest, hrest, hhead⟩ := ih
        refine ⟨rest, ?_, hhead⟩
        have hmore : leadingZeros (d :: ds) = leadingZeros ds + 1 := by
          simp [leadingZeros, hd]
        rw [hmore, List.replicate_succ, List.cons_append, ← hrest, hd]
      · exact ⟨d :: ds, by simp [leadingZeros, hd], by simpa using hd⟩

/-- The rest has the number of the whole list. -/
theorem exists_rest (ds : List ℕ) : ∃ rest,
    ds = List.replicate (leadingZeros ds) 0 ++ rest ∧
      rest.head? ≠ some 0 ∧ ds.length = leadingZeros ds + rest.length ∧
      ∀ base, value base ds = value base rest := by
  obtain ⟨rest, hrest, hhead⟩ := exists_eq_replicate_append ds
  refine ⟨rest, hrest, hhead, ?_, fun base => ?_⟩
  · have hlength := congrArg List.length hrest
    rwa [List.length_append, List.length_replicate] at hlength
  · rw [hrest, value_replicate_append]

/-- Rewrite digits in another base, zeros in front one by one. -/
def convert (base base' : ℕ) (ds : List ℕ) : List ℕ :=
  List.replicate (leadingZeros ds) 0 ++ digits base' (value base ds)

theorem convert_lt (hbase' : 1 < base') {ds : List ℕ} :
    ∀ d ∈ convert base base' ds, d < base' := by
  intro d hd
  rcases List.mem_append.mp hd with hzero | hdigit
  · rw [List.eq_of_mem_replicate hzero]
    exact Nat.lt_of_succ_lt hbase'
  · exact digits_lt hbase' hdigit

/-- Back in the first base the digits are what they were. -/
theorem convert_convert (hbase : 1 < base) {ds : List ℕ}
    (h : ∀ d ∈ ds, d < base) :
    convert base' base (convert base base' ds) = ds := by
  obtain ⟨rest, hrest, hhead, _, hvalue⟩ := exists_rest ds
  have hdigits : digits base (value base rest) = rest := by
    refine digits_value hbase (fun d hd => h d ?_) hhead
    rw [hrest]
    exact List.mem_append_right _ hd
  have hzeros := leadingZeros_replicate_append
    (head?_digits_ne_zero base' (value base ds)) (leadingZeros ds)
  rw [convert, convert, hzeros, value_replicate_append, value_digits, hvalue,
    hdigits, ← hrest]

theorem length_digits_le_iff (hbase : 1 < base) {n k : ℕ} :
    (digits base n).length ≤ k ↔ n < base ^ k := by
  rw [digits, List.length_reverse, Nat.digits_length_le_iff hbase]

theorem length_convert (ds : List ℕ) :
    (convert base base' ds).length =
      leadingZeros ds + (digits base' (value base ds)).length := by
  rw [convert, List.length_append, List.length_replicate]

/-- In a smaller base a list gets no shorter. -/
theorem length_le_length_convert (hbase' : 1 < base') (hle : base' ≤ base)
    (ds : List ℕ) : ds.length ≤ (convert base base' ds).length := by
  obtain ⟨rest, _, hhead, hlength, hvalue⟩ := exists_rest ds
  rw [length_convert, hlength, hvalue]
  apply Nat.add_le_add_left
  cases rest with
  | nil => exact Nat.zero_le _
  | cons d rest =>
      have hd : d ≠ 0 := by simpa using hhead
      rw [List.length_cons, ← not_lt, Nat.lt_succ_iff,
        length_digits_le_iff hbase', not_lt]
      exact (Nat.pow_le_pow_left hle _).trans (le_value_cons hd)

/-- How long it can get: as long as the largest number of its length. -/
theorem length_convert_le (hbase : 1 < base) (hbase' : 1 < base')
    (hle : base' ≤ base) {ds : List ℕ} (h : ∀ d ∈ ds, d < base) {k : ℕ}
    (hk : base ^ ds.length ≤ base' ^ k) :
    (convert base base' ds).length ≤ k := by
  obtain ⟨rest, hrest, _, hlength, hvalue⟩ := exists_rest ds
  have hlong : ds.length ≤ k :=
    (Nat.pow_le_pow_iff_right hbase').mp
      ((Nat.pow_le_pow_left hle _).trans hk)
  obtain ⟨room, rfl⟩ : ∃ room, k = leadingZeros ds + room :=
    Nat.exists_eq_add_of_le (by omega)
  rw [length_convert, hvalue]
  apply Nat.add_le_add_left
  rw [length_digits_le_iff hbase']
  have hsmall : value base rest < base ^ rest.length := by
    refine value_lt hbase fun d hd => h d ?_
    rw [hrest]
    exact List.mem_append_right _ hd
  refine hsmall.trans_le (Nat.le_of_mul_le_mul_left ?_
    (Nat.pow_pos (n := leadingZeros ds) (Nat.lt_of_succ_lt hbase')))
  calc base' ^ leadingZeros ds * base ^ rest.length
      ≤ base ^ leadingZeros ds * base ^ rest.length :=
        Nat.mul_le_mul_right _ (Nat.pow_le_pow_left hle _)
    _ = base ^ ds.length := by rw [hlength, pow_add]
    _ ≤ base' ^ (leadingZeros ds + room) := hk
    _ = base' ^ leadingZeros ds * base' ^ room := pow_add _ _ _

end PositionalNotation
