/-
The guardrails engine: the rules of an agent evaluated against a verified
payment, the daily limit that the spend reservation takes from them, and the
rows they are stored in.
-/
import X402Guard.PaymentVerification

namespace X402Guard

variable (ext : Externals)

/-- Reject if the payment is above the limit. -/
def checkMaxSpendPerTx (value : U256) (limit : Nat) : Except AppError Unit :=
  rejectIf (value > BitVec.ofNat 256 limit) (.guardrailViolation
    s!"MaxSpendPerTx exceeded: payment {value.toNat} > limit {limit}")

/-- Extract the MaxSpendPerDay limit from a set of rules: the first active one,
if any. -/
def extractDailyLimit (rules : List GuardrailRule) : Option Nat :=
  rules.findSome? fun rule =>
    if ¬ rule.isActive then none
    else match rule.ruleType with
      | .maxSpendPerDay limit => some limit
      | _ => none

/-- Reject if daily spend and payment together are above the limit. -/
def checkMaxSpendPerDay (value : U256) (dailySpent limit : Nat) :
    Except AppError Unit :=
  let total := BitVec.ofNat 256 dailySpent + value
  rejectIf (total > BitVec.ofNat 256 limit) (.guardrailViolation
    s!"MaxSpendPerDay exceeded: daily total {total.toNat} > limit {limit}")

/-- The caller's `extra.contract`, when it is a string. -/
def targetContract (requirements : PaymentRequirements) : Option String :=
  (requirements.extra.get "contract").bind Value.asStr

/-- Is the text one of the addresses, up to letter case? -/
def ListedIn (addresses : List String) (text : String) : Prop :=
  ∃ address ∈ addresses, ext.toLowercase address = ext.toLowercase text

instance (addresses : List String) (text : String) :
    Decidable (ListedIn ext addresses text) :=
  inferInstanceAs (Decidable (∃ address ∈ addresses, _))

/-- Reject if the target is not in the whitelist; an empty one denies all. -/
def checkAllowedContracts (requirements : PaymentRequirements)
    (allowed : List String) : Except AppError Unit := do
  rejectIf (allowed = []) (.guardrailViolation
    "AllowedContracts: empty whitelist — all targets denied")
  -- `extra.contract`, or else the `payTo` address
  let target := (targetContract requirements).getD requirements.payTo
  rejectIf (¬ ListedIn ext allowed target) (.guardrailViolation
    s!"AllowedContracts: target {target} not in whitelist")

/-- Reject a metadata field above `max`; an absent field passes.  A value that
is not a 32-bit integer is invalid. -/
def checkExtraBound (requirements : PaymentRequirements)
    (field name invalid unit : String) (max : Nat) : Except AppError Unit :=
  match requirements.extra.get field with
  | none => .ok ()
  | some value => do
      let bound ← okOr (.guardrailViolation invalid)
        (value.asU64.bind u32TryFrom)
      rejectIf (bound > max) (.guardrailViolation
        s!"{name} exceeded: {bound}{unit} > max {max}{unit}")

def checkMaxLeverage (requirements : PaymentRequirements) (max : Nat) :
    Except AppError Unit :=
  checkExtraBound requirements "leverage" "MaxLeverage"
    "MaxLeverage: invalid leverage value" "" max

def checkMaxSlippage (requirements : PaymentRequirements) (maxBps : Nat) :
    Except AppError Unit :=
  checkExtraBound requirements "slippageBps" "MaxSlippage"
    "MaxSlippage: invalid slippage value" " bps" maxBps

def evaluateSingle (rule : RuleType) (payment : VerifiedPayment)
    (requirements : PaymentRequirements) (dailySpent : Nat) :
    Except AppError Unit :=
  match rule with
  | .maxSpendPerTx limit => checkMaxSpendPerTx payment.value limit
  | .maxSpendPerDay limit => checkMaxSpendPerDay payment.value dailySpent limit
  | .allowedContracts addresses =>
      checkAllowedContracts ext requirements addresses
  | .maxLeverage max => checkMaxLeverage requirements max
  | .maxSlippage bps => checkMaxSlippage requirements bps

/-- Evaluate all active guardrail rules; the first that fails decides. -/
def evaluate (rules : List GuardrailRule) (payment : VerifiedPayment)
    (requirements : PaymentRequirements) (dailySpent : Nat) :
    Except AppError Unit :=
  match rules with
  | [] => .ok ()
  | rule :: rest => do
      if rule.isActive then
        evaluateSingle ext rule.ruleType payment requirements dailySpent
      evaluate rest payment requirements dailySpent

/-- The rules pass exactly when every active one does. -/
theorem evaluate_eq_ok_iff {payment : VerifiedPayment}
    {requirements : PaymentRequirements} {dailySpent : Nat}
    {rules : List GuardrailRule} :
    evaluate ext rules payment requirements dailySpent = .ok () ↔
      ∀ rule ∈ rules, rule.isActive = true →
        evaluateSingle ext rule.ruleType payment requirements dailySpent =
          .ok () := by
  induction rules with
  | nil => simp [evaluate]
  | cons rule rest ih =>
      rw [List.forall_mem_cons, ← ih, evaluate]
      cases hactive : rule.isActive with
      | false => simp
      | true =>
          simp only [↓reduceIte, except_bind_eq_ok, forall_const]
          constructor
          · rintro ⟨⟨⟩, hrule, hrest⟩
            exact ⟨hrule, hrest⟩
          · rintro ⟨hrule, hrest⟩
            exact ⟨(), hrule, hrest⟩

theorem checkAllowedContracts_eq_ok_iff {requirements : PaymentRequirements}
    {allowed : List String} :
    checkAllowedContracts ext requirements allowed = .ok () ↔
      ListedIn ext allowed
        ((targetContract requirements).getD requirements.payTo) := by
  simp only [checkAllowedContracts, except_bind_eq_ok, rejectIf_eq_ok_iff,
    exists_const, not_not, and_iff_right_iff_imp]
  rintro ⟨address, hmem, _⟩ rfl
  simp at hmem

/-- `limit` is the limit of an active daily rule. -/
def HasDailyLimit (rules : List GuardrailRule) (limit : Nat) : Prop :=
  ∃ rule ∈ rules, rule.isActive = true ∧ rule.ruleType = .maxSpendPerDay limit

/-- `first` is the limit of the active daily rule that comes before the
others. -/
def FirstDailyLimit (rules : List GuardrailRule) (first : Nat) : Prop :=
  ∃ before rule after, rules = before ++ rule :: after ∧
    rule.isActive = true ∧ rule.ruleType = .maxSpendPerDay first ∧
    ∀ limit, ¬ HasDailyLimit before limit

theorem FirstDailyLimit.hasDailyLimit {rules : List GuardrailRule}
    {first : Nat} (h : FirstDailyLimit rules first) :
    HasDailyLimit rules first := by
  obtain ⟨before, rule, after, rfl, hactive, htype, _⟩ := h
  exact ⟨rule, by simp, hactive, htype⟩

/-- Nothing is extracted exactly when no daily rule is active. -/
theorem extractDailyLimit_eq_none_iff {rules : List GuardrailRule} :
    extractDailyLimit rules = none ↔ ∀ limit, ¬ HasDailyLimit rules limit := by
  rw [extractDailyLimit, List.findSome?_eq_none_iff]
  constructor
  · rintro h limit ⟨rule, hmem, hactive, htype⟩
    have hnone := h rule hmem
    rw [hactive, htype] at hnone
    simp at hnone
  · intro h rule hmem
    split
    · rfl
    · rename_i hactive
      split
      · rename_i limit htype
        exact absurd ⟨rule, hmem, by simpa using hactive, htype⟩ (h limit)
      · rfl

/-- The extracted daily limit is the first. -/
theorem extractDailyLimit_eq_some_iff {rules : List GuardrailRule}
    {first : Nat} :
    extractDailyLimit rules = some first ↔ FirstDailyLimit rules first := by
  have hrule : ∀ rule : GuardrailRule, (if ¬ rule.isActive then none
      else match rule.ruleType with
        | .maxSpendPerDay limit => some limit
        | _ => none) = some first ↔
      rule.isActive = true ∧ rule.ruleType = .maxSpendPerDay first := by
    intro rule
    by_cases hactive : rule.isActive = true
    · cases htype : rule.ruleType <;> simp [hactive]
    · simp [hactive]
  rw [extractDailyLimit, List.findSome?_eq_some_iff]
  apply exists_congr
  intro before
  apply exists_congr
  intro rule
  apply exists_congr
  intro after
  have hnone : extractDailyLimit before = none ↔ _ :=
    extractDailyLimit_eq_none_iff
  rw [extractDailyLimit, List.findSome?_eq_none_iff] at hnone
  rw [hrule, hnone, and_assoc]

/-! ### Stored rules -/

/-- A row of `guardrail_rules`. -/
structure GuardrailRow where
  id : Uuid
  agentId : Uuid
  ruleType : String
  ruleParams : Value
  isActive : Bool

def ruleTypeName : RuleType → String
  | .maxSpendPerTx _ => "MaxSpendPerTx"
  | .maxSpendPerDay _ => "MaxSpendPerDay"
  | .allowedContracts _ => "AllowedContracts"
  | .maxLeverage _ => "MaxLeverage"
  | .maxSlippage _ => "MaxSlippage"

def ruleTypeParams : RuleType → Value
  | .maxSpendPerTx limit => .object [("limit", .ofNat limit)]
  | .maxSpendPerDay limit => .object [("limit", .ofNat limit)]
  | .allowedContracts addresses =>
      .object [("addresses", .ofStrings addresses)]
  | .maxLeverage max => .object [("max", .ofNat max)]
  | .maxSlippage bps => .object [("bps", .ofNat bps)]

def rowToRuleType (name : String) (params : Value) : Except String RuleType :=
  if name = "MaxSpendPerTx" then do
    let limit ← okOr "missing 'limit' in MaxSpendPerTx params"
      (params.index "limit").asU64
    return .maxSpendPerTx limit
  else if name = "MaxSpendPerDay" then do
    let limit ← okOr "missing 'limit' in MaxSpendPerDay params"
      (params.index "limit").asU64
    return .maxSpendPerDay limit
  else if name = "AllowedContracts" then do
    let addresses ← okOr "invalid 'addresses' in AllowedContracts"
      (params.index "addresses").toStrings
    return .allowedContracts addresses
  else if name = "MaxLeverage" then do
    let max ← okOr "invalid 'max' in MaxLeverage params"
      ((params.index "max").asU64.bind u32TryFrom)
    return .maxLeverage max
  else if name = "MaxSlippage" then do
    let bps ← okOr "invalid 'bps' in MaxSlippage params"
      ((params.index "bps").asU64.bind u32TryFrom)
    return .maxSlippage bps
  else .error s!"unknown rule_type: {name}"

def rowToRule (row : GuardrailRow) : Except String GuardrailRule := do
  let ruleType ← rowToRuleType row.ruleType row.ruleParams
  return ⟨row.id, row.agentId, ruleType, row.isActive⟩

/-- Decode every row or fail: `collect` into a `Result`. -/
def rowsToRules (rows : List GuardrailRow) :
    Except String (List GuardrailRule) :=
  rows.mapM rowToRule

end X402Guard
