/-
The verdicts of the guardrails and of a session key as arithmetic on whole
numbers.  The code adds 256-bit words, clamps and saturates; the ranges of the
numbers it stores make all of that exact.
-/
import X402Guard.ProxySystem

namespace X402Guard

variable (ext : Externals)

/-! ### Guardrails -/

/-- A metadata field is absent, or is a 32-bit integer up to `max`. -/
def ExtraWithin (requirements : PaymentRequirements) (field : String)
    (max : ℕ) : Prop :=
  ∀ value, requirements.extra.get field = some value →
    ∃ n, value = .ofNat n ∧ n < 2 ^ 32 ∧ n ≤ max

namespace RuleType

/-- The numbers of the rule are in the ranges of `u64` and `u32`. -/
def InRange : RuleType → Prop
  | .maxSpendPerTx limit => limit ≤ u64Max
  | .maxSpendPerDay limit => limit ≤ u64Max
  | .allowedContracts _ => True
  | .maxLeverage max => max < 2 ^ 32
  | .maxSlippage bps => bps < 2 ^ 32

instance (rule : RuleType) : Decidable rule.InRange := by
  cases rule <;> unfold InRange <;> infer_instance

/-- The rule is satisfied by a payment of `amount`, with `dailySpent` before
it. -/
def Satisfied (requirements : PaymentRequirements) (amount dailySpent : ℕ) :
    RuleType → Prop
  | .maxSpendPerTx limit => amount ≤ limit
  | .maxSpendPerDay limit => dailySpent + amount ≤ limit
  | .allowedContracts addresses => addresses ≠ [] ∧ ListedIn ext addresses
      ((targetContract requirements).getD requirements.payTo)
  | .maxLeverage max => ExtraWithin requirements "leverage" max
  | .maxSlippage bps => ExtraWithin requirements "slippageBps" bps

end RuleType

section Rules

variable {requirements : PaymentRequirements} {value : U256}
variable {limit dailySpent : ℕ}

theorem toNat_ofNat_of_le (h : limit ≤ u64Max) :
    (BitVec.ofNat 256 limit).toNat = limit := by
  rw [BitVec.toNat_ofNat, Nat.mod_eq_of_lt]
  rw [u64Max] at h
  omega

theorem checkMaxSpendPerTx_eq_ok_iff (hlimit : limit ≤ u64Max) :
    checkMaxSpendPerTx value limit = .ok () ↔ value.toNat ≤ limit := by
  rw [checkMaxSpendPerTx, rejectIf_eq_ok_iff, gt_iff_lt, BitVec.not_lt,
    BitVec.le_def, toNat_ofNat_of_le hlimit]

/-- Two 64-bit numbers do not wrap around a 256-bit word. -/
theorem dailyTotal_toNat (hdaily : dailySpent ≤ u64Max)
    (hvalue : value.toNat ≤ u64Max) :
    (BitVec.ofNat 256 dailySpent + value).toNat =
      dailySpent + value.toNat := by
  rw [BitVec.toNat_add, toNat_ofNat_of_le hdaily, Nat.mod_eq_of_lt]
  rw [u64Max] at hdaily hvalue
  omega

theorem checkMaxSpendPerDay_eq_ok_iff (hlimit : limit ≤ u64Max)
    (hdaily : dailySpent ≤ u64Max) (hvalue : value.toNat ≤ u64Max) :
    checkMaxSpendPerDay value dailySpent limit = .ok () ↔
      dailySpent + value.toNat ≤ limit := by
  rw [checkMaxSpendPerDay, rejectIf_eq_ok_iff, gt_iff_lt, BitVec.not_lt,
    BitVec.le_def, dailyTotal_toNat hdaily hvalue, toNat_ofNat_of_le hlimit]

theorem asU64_eq_some_iff {value : Value} {n : ℕ} :
    value.asU64 = some n ↔ value = .ofNat n := by
  unfold Value.asU64
  split <;> simp_all [Value.ofNat]

/-- A value other than a 32-bit integer fails, whatever the maximum. -/
theorem checkExtraBound_eq_ok_iff {field name invalid unit : String}
    {max : ℕ} :
    checkExtraBound requirements field name invalid unit max = .ok () ↔
      ExtraWithin requirements field max := by
  unfold checkExtraBound ExtraWithin
  cases requirements.extra.get field with
  | none => simp
  | some value =>
      simp only [except_bind_eq_ok, okOr_eq_ok_iff, rejectIf_eq_ok_iff,
        Option.bind_eq_some_iff, asU64_eq_some_iff, u32TryFrom_eq_some_iff,
        Option.some.injEq, forall_eq', gt_iff_lt, not_lt]
      constructor
      · rintro ⟨_, ⟨n, hvalue, hrange, rfl⟩, hmax⟩
        exact ⟨_, hvalue, hrange, hmax⟩
      · rintro ⟨n, hvalue, hrange, hmax⟩
        exact ⟨n, ⟨n, hvalue, hrange, rfl⟩, hmax⟩

/-- A rule passes exactly when it is satisfied over the whole numbers. -/
theorem evaluateSingle_eq_ok_iff {rule : RuleType} {payment : VerifiedPayment}
    (hrule : rule.InRange) (hvalue : payment.value.toNat ≤ u64Max)
    (hdaily : dailySpent ≤ u64Max) :
    evaluateSingle ext rule payment requirements dailySpent = .ok () ↔
      rule.Satisfied ext requirements payment.value.toNat dailySpent := by
  cases rule with
  | maxSpendPerTx limit => exact checkMaxSpendPerTx_eq_ok_iff hrule
  | maxSpendPerDay limit =>
      exact checkMaxSpendPerDay_eq_ok_iff hrule hdaily hvalue
  | allowedContracts addresses =>
      rw [evaluateSingle, checkAllowedContracts_eq_ok_iff, RuleType.Satisfied,
        iff_and_self]
      rintro ⟨address, hmem, _⟩
      exact List.ne_nil_of_mem hmem
  | maxLeverage max => exact checkExtraBound_eq_ok_iff
  | maxSlippage bps => exact checkExtraBound_eq_ok_iff

/-- The active rules alone decide, in whatever order they stand. -/
theorem evaluate_eq_ok_iff_of_active {rules others : List GuardrailRule}
    {payment : VerifiedPayment}
    (h : ∀ rule, rule.isActive = true → (rule ∈ others ↔ rule ∈ rules)) :
    evaluate ext others payment requirements dailySpent = .ok () ↔
      evaluate ext rules payment requirements dailySpent = .ok () := by
  rw [evaluate_eq_ok_iff, evaluate_eq_ok_iff]
  constructor
  · intro hothers rule hmem hactive
    exact hothers rule ((h rule hactive).mpr hmem) hactive
  · intro hrules rule hmem hactive
    exact hrules rule ((h rule hactive).mp hmem) hactive

end Rules

/-- The guardrails accept a payment of 64 bits exactly when every active rule
is satisfied over the whole numbers; the addition of the daily check does not
wrap.  Neither the order of the rules nor inactive ones matter, and a rule more
turns no rejection into an acceptance. -/
theorem evaluate_exact {rules : List GuardrailRule}
    {payment : VerifiedPayment} {requirements : PaymentRequirements}
    {dailySpent : ℕ} (hrules : ∀ rule ∈ rules, rule.ruleType.InRange)
    (hvalue : payment.value.toNat ≤ u64Max) (hdaily : dailySpent ≤ u64Max) :
    (BitVec.ofNat 256 dailySpent + payment.value).toNat =
        dailySpent + payment.value.toNat ∧
      (evaluate ext rules payment requirements dailySpent = .ok () ↔
        ∀ rule ∈ rules, rule.isActive = true → rule.ruleType.Satisfied ext
          requirements payment.value.toNat dailySpent) ∧
      (∀ others : List GuardrailRule,
        (others.filter (·.isActive)).Perm (rules.filter (·.isActive)) →
        (evaluate ext others payment requirements dailySpent = .ok () ↔
          evaluate ext rules payment requirements dailySpent = .ok ())) ∧
      ∀ rule before after, before ++ after = rules →
        evaluate ext (before ++ rule :: after) payment requirements
          dailySpent = .ok () →
        evaluate ext rules payment requirements dailySpent = .ok () := by
  refine ⟨dailyTotal_toNat hdaily hvalue, ?_, ?_, ?_⟩
  · rw [evaluate_eq_ok_iff]
    refine forall_congr' fun rule => forall_congr' fun hmem =>
      forall_congr' fun _ => ?_
    exact evaluateSingle_eq_ok_iff ext (hrules rule hmem) hvalue hdaily
  · intro others hperm
    refine evaluate_eq_ok_iff_of_active ext fun rule hactive => ?_
    have hmem := hperm.mem_iff (a := rule)
    simpa [hactive] using hmem
  · rintro rule before after rfl hmore
    rw [evaluate_eq_ok_iff] at hmore ⊢
    intro other hmem hactive
    refine hmore other ?_ hactive
    rw [List.mem_append, List.mem_cons]
    exact (List.mem_append.mp hmem).imp_right .inr

/-- The daily limit can be reached, up to the last `u64`, and not passed. -/
theorem evaluate_exact_sample :
    let rules : List GuardrailRule :=
      [⟨Sample.ruleId, Sample.agentId, .maxSpendPerDay u64Max, true⟩,
        ⟨Sample.ruleId, Sample.agentId, .maxLeverage 3, true⟩,
        ⟨Sample.ruleId, Sample.agentId, .maxSpendPerTx 1, false⟩]
    evaluate Sample.externals rules
        (Sample.received .first true true).verified Sample.requirements
        (u64Max - 60_000_000) = .ok () ∧
      evaluate Sample.externals rules
        (Sample.received .first true true).verified Sample.requirements
        u64Max ≠ .ok () := by
  intro rules
  have hrules : ∀ rule ∈ rules, rule.ruleType.InRange := by decide
  have hvalue : (Sample.received .first true true).verified.value.toNat ≤
      u64Max := by decide
  constructor
  · refine (evaluate_exact Sample.externals hrules hvalue
      (Nat.sub_le _ _)).2.1.mpr ?_
    simp [rules, RuleType.Satisfied, ExtraWithin, Sample.requirements,
      Value.get, Sample.received, u64Max]
  · intro hok
    have hall := (evaluate_exact Sample.externals hrules hvalue
      (Nat.le_refl _)).2.1.mp hok
    have hday := hall ⟨Sample.ruleId, Sample.agentId,
      .maxSpendPerDay u64Max, true⟩ (by simp [rules]) rfl
    revert hday
    simp [RuleType.Satisfied, Sample.received]

/-! ### Session keys -/

/-- The clamped and saturated total exceeds a limit below `u64::MAX` exactly
when the exact one does. -/
theorem saturatedTotal_le_iff {spent maxSpend : ℕ} {value : U256}
    (hmax : maxSpend < u64Max) :
    u64SaturatingAdd spent ((u64OfU256 value).getD u64Max) ≤ maxSpend ↔
      spent + value.toNat ≤ maxSpend := by
  unfold u64SaturatingAdd u64OfU256
  split
  · rw [Option.getD_some]
    omega
  · rw [Option.getD_none]
    omega

/-- A stored session key allows a payment exactly when it is neither revoked
nor expired, its budget covers the exact sum and its contracts the target. -/
theorem verifySessionKey_exact {row : SessionKeyRow} {key : SessionKey}
    {now : Micros} {payment : VerifiedPayment} {target : Option String}
    (hbigint : row.maxSpend < 2 ^ 63) (hrow : rowToSessionKey row = .ok key) :
    verifySessionKey ext now key payment target = .ok () ↔
      key.isRevoked = false ∧ (now : ℤ) < key.expiresAt ∧
        key.spent + payment.value.toNat ≤ key.maxSpend ∧
        (key.allowedContracts = [] ∨ ∃ contract, target = some contract ∧
          ListedIn ext key.allowedContracts contract) := by
  obtain ⟨_, _, hmax, _⟩ := rowToSessionKey_eq_ok hrow
  have hbelow : key.maxSpend < u64Max := by
    rw [u64Max]
    omega
  rw [verifySessionKey_eq_ok_iff, saturatedTotal_le_iff hbelow]

/-- A payment above every 64-bit number is refused by the largest budget. -/
theorem verifySessionKey_exact_sample :
    ∃ key, rowToSessionKey (Sample.key Sample.agentId (2 ^ 63 - 1)
        (by decide)) = .ok key ∧
      verifySessionKey Sample.externals 0 key
        ⟨Sample.signer, Sample.service, BitVec.ofNat 256 (2 ^ 64), .zero,
          "base"⟩ none ≠ .ok () := by
  have hbigint : (Sample.key Sample.agentId (2 ^ 63 - 1)
      (by decide)).maxSpend < 2 ^ 63 := by decide
  refine ⟨_, rfl, fun hok => ?_⟩
  have hexact := (verifySessionKey_exact Sample.externals hbigint
    rfl).mp hok
  exact absurd hexact.2.2.1 (by decide)

end X402Guard
