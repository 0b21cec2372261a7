/-
The on-chain vault: its state and what each instruction of the program checks of
it and makes of it, the accounts and transfers aside.  Integers are those of the
program, with its checked arithmetic.
-/
import X402Guard.ServerTypes

namespace X402Guard

/-- A Solana public key; `Pubkey::default()` is all zeros. -/
abbrev Pubkey := Bytes32

def maxAllowedPrograms : Nat := 10

def secondsPerDay : Int64 := 86_400

def usdcMintDevnet : Pubkey where
  bytes := [59, 68, 44, 179, 145, 33, 87, 241, 58, 147, 61, 1, 52, 40, 45, 3,
    43, 95, 254, 205, 1, 162, 219, 241, 183, 121, 6, 8, 223, 0, 46, 167]
  length_eq := rfl

def usdcMintMainnet : Pubkey where
  bytes := [198, 250, 122, 243, 190, 219, 173, 58, 61, 101, 243, 106, 171, 201,
    116, 49, 177, 187, 228, 194, 210, 246, 224, 228, 124, 166, 2, 3, 69, 47,
    93, 97]
  length_eq := rfl

/-- Error codes of the program. -/
inductive GuardError
  | unauthorized
  | vaultPaused
  | agentExpired
  | zeroAmount
  | exceedsPerTxLimit
  | exceedsDailyCap
  | programNotWhitelisted
  | invalidAgentPubkey
  | invalidLimits
  | tooManyPrograms
  | arithmeticOverflow
  | invalidUsdcMint
deriving DecidableEq, Repr

def GuardError.msg : GuardError → String
  | .unauthorized => "Unauthorized: signer does not match expected authority"
  | .vaultPaused => "Vault is paused"
  | .agentExpired => "Agent key has expired"
  | .zeroAmount => "Amount must be greater than zero"
  | .exceedsPerTxLimit => "Amount exceeds per-transaction limit"
  | .exceedsDailyCap => "Amount would exceed daily spend cap"
  | .programNotWhitelisted => "Destination program not whitelisted"
  | .invalidAgentPubkey => "Invalid agent pubkey (cannot be default)"
  | .invalidLimits => "Invalid limits: must be > 0 and daily >= per-tx"
  | .tooManyPrograms => "Too many allowed programs (max 10)"
  | .arithmeticOverflow => "Arithmetic overflow in spend calculation"
  | .invalidUsdcMint =>
      "Invalid USDC mint: must be official devnet or mainnet USDC"

/-- `u64::checked_add`. -/
def checkedAdd (a b : UInt64) : Option UInt64 :=
  if a.toNat + b.toNat < 2 ^ 64 then some (a + b) else none

theorem checkedAdd_toNat {a b sum : UInt64} (h : checkedAdd a b = some sum) :
    sum.toNat = a.toNat + b.toNat := by
  unfold checkedAdd at h
  split at h
  · cases h
    rw [UInt64.toNat_add]
    exact Nat.mod_eq_of_lt ‹_›
  · cases h

theorem checkedAdd_eq_some_iff {a b sum : UInt64} :
    checkedAdd a b = some sum ↔ sum.toNat = a.toNat + b.toNat := by
  constructor
  · exact checkedAdd_toNat
  · intro h
    have hlt := sum.toNat_lt
    rw [checkedAdd, if_pos (by omega), Option.some.injEq]
    apply UInt64.toNat_inj.mp
    rw [UInt64.toNat_add, h]
    omega

/-- A sum within a limit is one that fits. -/
theorem exists_checkedAdd_le {a b limit : UInt64}
    (h : a.toNat + b.toNat ≤ limit.toNat) :
    ∃ sum, checkedAdd a b = some sum ∧ sum ≤ limit := by
  have hlt := limit.toNat_lt
  have hsum : (UInt64.ofNat (a.toNat + b.toNat)).toNat =
      a.toNat + b.toNat := by
    rw [UInt64.toNat_ofNat']
    exact Nat.mod_eq_of_lt (Nat.lt_of_le_of_lt h hlt)
  refine ⟨_, checkedAdd_eq_some_iff.mpr hsum, ?_⟩
  rw [UInt64.le_iff_toNat_le, hsum]
  exact h

/-- `i64::checked_sub`. -/
def checkedSub (a b : Int64) : Option Int64 :=
  if -2 ^ 63 ≤ a.toInt - b.toInt ∧ a.toInt - b.toInt < 2 ^ 63 then
    some (a - b)
  else none

theorem checkedSub_toInt {a b difference : Int64}
    (h : checkedSub a b = some difference) :
    difference.toInt = a.toInt - b.toInt := by
  unfold checkedSub at h
  split at h
  · cases h
    rw [Int64.toInt_sub]
    exact Int.bmod_eq_of_le (by omega) (by omega)
  · cases h

structure VaultState where
  /-- Can update rules, revoke the agent, close the vault. -/
  owner : Pubkey
  /-- `Pubkey::default()` means revoked. -/
  agent : Pubkey
  maxSpendPerTx : UInt64
  /-- Maximum amount per 24-hour rolling window. -/
  maxSpendPerDay : UInt64
  /-- Amount spent in the current day window. -/
  spentToday : UInt64
  dayWindowStart : Int64
  /-- Zero for no expiry. -/
  agentExpiresAt : Int64
  /-- Empty for any destination. -/
  allowedPrograms : List Pubkey
  isActive : Bool
  bump : UInt8
  reserved : Vector UInt8 64
deriving DecidableEq

structure InitializeVaultParams where
  agent : Pubkey
  maxSpendPerTx : UInt64
  maxSpendPerDay : UInt64
  agentExpiresAt : Int64
  allowedPrograms : List Pubkey
deriving DecidableEq

structure UpdateRulesParams where
  newMaxSpendPerTx : Option UInt64
  newMaxSpendPerDay : Option UInt64
  newAllowedPrograms : Option (List Pubkey)
  newAgent : Option Pubkey
  newAgentExpiresAt : Option Int64
  newIsActive : Option Bool
deriving DecidableEq

/-- The mint must be one of the known USDC mints. -/
def checkUsdcMint (mint : Pubkey) : Except GuardError Unit :=
  rejectIf (¬ (mint = usdcMintDevnet ∨ mint = usdcMintMainnet))
    .invalidUsdcMint

namespace VaultState

/-- The new vault, once its parameters are checked. -/
def initializeVault (params : InitializeVaultParams) (owner : Pubkey)
    (bump : UInt8) (now : Int64) : Except GuardError VaultState := do
  rejectIf (params.agent = .zero) .invalidAgentPubkey
  rejectIf (¬ (params.maxSpendPerTx > 0 ∧ params.maxSpendPerDay > 0))
    .invalidLimits
  rejectIf (¬ params.maxSpendPerDay ≥ params.maxSpendPerTx) .invalidLimits
  rejectIf (¬ params.allowedPrograms.length ≤ maxAllowedPrograms)
    .tooManyPrograms
  return {
    owner, bump
    agent := params.agent
    maxSpendPerTx := params.maxSpendPerTx
    maxSpendPerDay := params.maxSpendPerDay
    spentToday := 0
    dayWindowStart := now
    agentExpiresAt := params.agentExpiresAt
    allowedPrograms := params.allowedPrograms
    isActive := true
    reserved := .replicate 64 0 }

variable (vault : VaultState)

/-- Daily window reset: if 24h have elapsed, reset the counter. -/
def resetWindow (now : Int64) : Except GuardError VaultState := do
  let elapsed ← okOr .arithmeticOverflow (checkedSub now vault.dayWindowStart)
  if elapsed ≥ secondsPerDay then
    return { vault with spentToday := 0, dayWindowStart := now }
  else return vault

/-- The guardrails of `guarded_withdraw`, and the vault it leaves. -/
def guardedWithdraw (agent : Pubkey) (now : Int64) (amount : UInt64)
    (destAuthority destAddress : Pubkey) : Except GuardError VaultState := do
  -- 1. Vault must be active
  rejectIf (¬ vault.isActive) .vaultPaused
  -- 2. Signer must be the authorized agent
  rejectIf (agent ≠ vault.agent) .unauthorized
  -- 3. Check agent expiry (0 = no expiry)
  rejectIf (vault.agentExpiresAt > 0 ∧ ¬ now < vault.agentExpiresAt)
    .agentExpired
  -- 4. Amount must be positive
  rejectIf (¬ amount > 0) .zeroAmount
  -- 5. Per-transaction limit
  rejectIf (¬ amount ≤ vault.maxSpendPerTx) .exceedsPerTxLimit
  -- 6. Daily window reset
  let vault ← vault.resetWindow now
  -- 7. Daily cap check with checked arithmetic
  let newTotal ← okOr .arithmeticOverflow (checkedAdd vault.spentToday amount)
  rejectIf (¬ newTotal ≤ vault.maxSpendPerDay) .exceedsDailyCap
  -- 8. Destination whitelist, by authority or by address
  rejectIf (vault.allowedPrograms ≠ [] ∧
    ¬ (destAuthority ∈ vault.allowedPrograms ∨
      destAddress ∈ vault.allowedPrograms)) .programNotWhitelisted
  return { vault with spentToday := newTotal }

/-- Apply the provided fields; the limits are checked as they result. -/
def updateRules (params : UpdateRulesParams) :
    Except GuardError VaultState := do
  rejectIf (params.newAgent = some .zero) .invalidAgentPubkey
  let vault := { vault with agent := params.newAgent.getD vault.agent }
  rejectIf (params.newMaxSpendPerTx = some 0) .invalidLimits
  let vault := { vault with
    maxSpendPerTx := params.newMaxSpendPerTx.getD vault.maxSpendPerTx }
  rejectIf (params.newMaxSpendPerDay = some 0) .invalidLimits
  let vault := { vault with
    maxSpendPerDay := params.newMaxSpendPerDay.getD vault.maxSpendPerDay }
  rejectIf (¬ vault.maxSpendPerDay ≥ vault.maxSpendPerTx) .invalidLimits
  rejectIf (∃ programs ∈ params.newAllowedPrograms,
    ¬ programs.length ≤ maxAllowedPrograms) .tooManyPrograms
  return { vault with
    allowedPrograms :=
      params.newAllowedPrograms.getD vault.allowedPrograms
    agentExpiresAt := params.newAgentExpiresAt.getD vault.agentExpiresAt
    isActive := params.newIsActive.getD vault.isActive }

/-- Kill switch: zero the agent, pause the vault, clear the expiry. -/
def revokeAgent : VaultState :=
  { vault with agent := .zero, isActive := false, agentExpiresAt := 0 }

end VaultState

end X402Guard
