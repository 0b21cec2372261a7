/-
Session keys: the rows they are stored in, with the CHECK constraints of their
table, and the verification of a key for a payment.
-/
import X402Guard.GuardrailRules

namespace X402Guard

/-- A row of `session_keys`; the constraints of the table are part of it. -/
structure SessionKeyRow where
  id : Uuid
  agentId : Uuid
  publicKey : String
  maxSpend : Int
  spent : Int
  allowedContracts : Value
  expiresAt : Int
  isRevoked : Bool
  maxSpend_pos : 0 < maxSpend
  spent_nonneg : 0 ≤ spent
  spent_within_limit : spent ≤ maxSpend

def rowToSessionKey (row : SessionKeyRow) : Except String SessionKey := do
  let allowedContracts ← okOr "invalid allowed_contracts JSON"
    row.allowedContracts.toStrings
  let maxSpend ← okOr s!"negative max_spend {row.maxSpend} — data corruption"
    (u64TryFrom row.maxSpend)
  let spent ← okOr s!"negative spent {row.spent} — data corruption"
    (u64TryFrom row.spent)
  return {
    id := row.id
    agentId := row.agentId
    publicKey := row.publicKey
    maxSpend, spent, allowedContracts
    expiresAt := row.expiresAt
    isRevoked := row.isRevoked }

/-- A decoded key agrees with its row. -/
theorem rowToSessionKey_eq_ok {row : SessionKeyRow} {key : SessionKey}
    (h : rowToSessionKey row = .ok key) :
    key.id = row.id ∧ key.agentId = row.agentId ∧
      (key.maxSpend : Int) = row.maxSpend ∧ (key.spent : Int) = row.spent ∧
      row.allowedContracts.toStrings = some key.allowedContracts ∧
      key.expiresAt = row.expiresAt ∧ key.isRevoked = row.isRevoked := by
  simp only [rowToSessionKey, except_bind_eq_ok, okOr_eq_ok_iff,
    u64TryFrom_eq_some_iff, pure, Except.pure, Except.ok.injEq] at h
  obtain ⟨contracts, hcontracts, maxSpend, hmax, spent, hspent, rfl⟩ := h
  exact ⟨rfl, rfl, hmax.symm, hspent.symm, hcontracts, rfl, rfl⟩

/-- `u64::try_from` on a `U256`. -/
def u64OfU256 (value : U256) : Option Nat :=
  if value.toNat ≤ u64Max then some value.toNat else none

@[simp] theorem u64OfU256_eq_some_iff {value : U256} {n : Nat} :
    u64OfU256 value = some n ↔ value.toNat ≤ u64Max ∧ n = value.toNat := by
  unfold u64OfU256
  split
  · simp only [Option.some.injEq]
    omega
  · simp only [reduceCtorEq, false_iff]
    omega

variable (ext : Externals)

/-- Verify a session key is valid for the given payment. -/
def verifySessionKey (now : Micros) (key : SessionKey)
    (payment : VerifiedPayment) (targetContract : Option String) :
    Except AppError Unit := do
  -- 1. Revocation check
  rejectIf (key.isRevoked = true)
    (.forbidden "session key has been revoked")
  -- 2. Expiry check
  rejectIf ((now : Int) ≥ key.expiresAt)
    (.forbidden "session key has expired")
  -- 3. Spend limit check
  let paymentAmount := (u64OfU256 payment.value).getD u64Max
  let newTotal := u64SaturatingAdd key.spent paymentAmount
  rejectIf (newTotal > key.maxSpend) (.guardrailViolation
    s!"session key spend limit exceeded: {key.spent} + {paymentAmount} > {key.maxSpend}")
  -- 4. Contract whitelist check
  if key.allowedContracts ≠ [] then
    match targetContract with
    | some contract =>
        rejectIf (¬ ListedIn ext key.allowedContracts contract) (.forbidden
          s!"session key not authorized for contract {contract}")
    | none => .error (.forbidden
        "session key requires target contract but none specified")

/-- The checks a verified session key has passed. -/
theorem verifySessionKey_eq_ok_iff {now : Micros} {key : SessionKey}
    {payment : VerifiedPayment} {targetContract : Option String} :
    verifySessionKey ext now key payment targetContract = .ok () ↔
      key.isRevoked = false ∧ (now : Int) < key.expiresAt ∧
      u64SaturatingAdd key.spent ((u64OfU256 payment.value).getD u64Max) ≤
        key.maxSpend ∧
      (key.allowedContracts = [] ∨ ∃ contract, targetContract = some contract ∧
        ListedIn ext key.allowedContracts contract) := by
  simp only [verifySessionKey, except_bind_eq_ok, rejectIf_eq_ok_iff,
    exists_and_left, exists_const, Bool.not_eq_true, gt_iff_lt, ge_iff_le,
    Nat.not_lt, Int.not_le]
  refine and_congr_right fun _ => and_congr_right fun _ =>
    and_congr_right fun _ => ?_
  by_cases hrestricted : key.allowedContracts = []
  · simp [hrestricted, pure, Except.pure]
  · cases targetContract <;> simp [hrestricted]

end X402Guard
