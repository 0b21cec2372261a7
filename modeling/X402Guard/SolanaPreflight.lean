/-
The pre-flight checks of `forward_solana_request`: what is checked of the
account of a vault before anything is forwarded, and which vaults, amounts,
destinations and clocks pass.
-/
import X402Guard.SolanaRpc
import X402Guard.UrlChecks

namespace X402Guard

open Interaction
open Borsh (Holds serialize)

structure SolanaConfig where
  solanaRpcUrl : Option String
  solanaProgramId : Option String
deriving DecidableEq, Repr

structure SolanaProxyRequest where
  targetUrl : String
  network : String
  vaultOwner : String
  amount : UInt64
  destinationProgram : Option String
  x402Payment : String
deriving DecidableEq

abbrev Checked (α : Type) := Except (Fault AppError) α

/-- Fail with the error that a failing step is turned into. -/
def orFail {ε α : Type} (error : ε → AppError) (result : Except ε α) :
    Checked α :=
  result.mapError fun cause => .error (error cause)

/-- An error of the decoder is turned into one, a panic stays a panic. -/
def Fault.map {ε ε' : Type} (f : ε → ε') : Fault ε → Fault ε'
  | .error e => .error (f e)
  | .panic cause => .panic cause

/-- `SystemTime::now().duration_since(UNIX_EPOCH)`, in whole seconds; none if
the clock is before the epoch. -/
def sinceEpoch (now : Int64) : Option ℕ :=
  u64TryFrom now.toInt

/-- 5b. The agent must not be expired; 0 means no expiry. -/
def checkAgentExpiry (vault : SolanaRpc.VaultState) (clock : Option ℕ) :
    Checked Unit := do
  if vault.agentExpiresAt > 0 then
    let now ← okOr (.panic "system clock is before UNIX epoch") clock
    let expiresAt := (u64TryFrom vault.agentExpiresAt.toInt).getD 0
    refuseIf (now > expiresAt) (.forbidden "agent key has expired")

/-- 5e. The destination must be whitelisted, if there is a whitelist and a
destination. -/
def checkDestination (vault : SolanaRpc.VaultState)
    (destinationProgram : Option String) : Checked Unit := do
  if vault.allowedPrograms ≠ [] then
    match destinationProgram with
    | none => return ()
    | some dest => do
        let key ← orFail (fun e => .badRequest
          s!"invalid destination_program pubkey: {e}")
          (SolanaRpc.decodePubkey dest)
        refuseIf (key ∉ vault.allowedPrograms) (.guardrailViolation
          (s!"destination program {dest} is not in the vault's allowed " ++
            "programs whitelist"))

/-- Steps 5a to 5e; the result is what remains for the day. -/
def preflight (vault : SolanaRpc.VaultState) (amount : UInt64)
    (destinationProgram : Option String) (clock : Option ℕ) :
    Checked UInt64 := do
  refuseIf (¬ vault.isActive) (.forbidden "vault is not active")
  checkAgentExpiry vault clock
  refuseIf (amount > vault.maxSpendPerTx) (.guardrailViolation
    (s!"amount {amount} exceeds per-transaction limit " ++
      s!"{vault.maxSpendPerTx}"))
  let newDailyTotal ← okOr
    (.error (.guardrailViolation "daily spend would overflow u64"))
    (checkedAdd vault.spentToday amount)
  refuseIf (newDailyTotal > vault.maxSpendPerDay) (.guardrailViolation
    (s!"amount {amount} would exceed daily limit (spent_today=" ++
      s!"{vault.spentToday}, max_spend_per_day={vault.maxSpendPerDay})"))
  checkDestination vault destinationProgram
  -- `saturating_sub`
  return if newDailyTotal ≤ vault.maxSpendPerDay then
    vault.maxSpendPerDay - newDailyTotal else 0

/-- The checks of the account of a vault, as the RPC node returns it. -/
def checkVault (data : List UInt8) (amount : UInt64)
    (destinationProgram : Option String) (clock : Option ℕ) :
    Checked UInt64 := do
  let vault ← (SolanaRpc.VaultState.fromAccountData data).mapError
    (Fault.map fun e => .internal s!"failed to deserialize vault state: {e}")
  preflight vault amount destinationProgram clock

/-- What the checks of the account ask of the vault, over the integers. -/
structure VaultState.Passes (vault : VaultState) (amount : UInt64)
    (destination : Pubkey) (now : Int64) : Prop where
  active : vault.isActive = true
  notExpired : 0 < vault.agentExpiresAt → 0 ≤ now ∧ now ≤ vault.agentExpiresAt
  perTx : amount ≤ vault.maxSpendPerTx
  perDay : vault.spentToday.toNat + amount.toNat ≤ vault.maxSpendPerDay.toNat
  listed : vault.allowedPrograms = [] ∨ destination ∈ vault.allowedPrograms

@[simp] theorem refuseIf_eq_ok_iff {ε : Type} {condition : Prop}
    [Decidable condition] {error : ε} {u : Unit} :
    refuseIf condition error = .ok u ↔ ¬ condition :=
  rejectIf_eq_ok_iff

theorem checkAgentExpiry_eq_ok_iff {vault : SolanaRpc.VaultState}
    {now : Int64} {u : Unit} :
    checkAgentExpiry vault (sinceEpoch now) = .ok u ↔
      (0 < vault.agentExpiresAt → 0 ≤ now ∧ now ≤ vault.agentExpiresAt) := by
  have hzero : (0 : Int64).toInt = 0 := rfl
  by_cases hexpires : 0 < vault.agentExpiresAt
  · have hpos := hexpires
    rw [Int64.lt_iff_toInt_lt, hzero] at hpos
    have hat : u64TryFrom vault.agentExpiresAt.toInt =
        some vault.agentExpiresAt.toInt.toNat :=
      if_pos (Int.le_of_lt hpos)
    rw [checkAgentExpiry, if_pos hexpires]
    simp only [except_bind_eq_ok, okOr_eq_ok_iff, sinceEpoch,
      u64TryFrom_eq_some_iff, hat, Option.getD_some, refuseIf_eq_ok_iff,
      gt_iff_lt, not_lt, hexpires, true_imp_iff, Int64.le_iff_toInt_le, hzero]
    constructor
    · rintro ⟨seconds, hseconds, hle⟩
      omega
    · rintro ⟨hnow, hle⟩
      exact ⟨now.toInt.toNat, by omega, by omega⟩
  · simp [checkAgentExpiry, hexpires, pure, Except.pure]

theorem checkDestination_eq_ok_iff {vault : SolanaRpc.VaultState}
    {dest : String} {destination : Pubkey}
    (hdest : SolanaRpc.decodePubkey dest = .ok destination) :
    checkDestination vault (some dest) = .ok () ↔
      vault.allowedPrograms = [] ∨ destination ∈ vault.allowedPrograms := by
  by_cases hnone : vault.allowedPrograms = []
  · simp [checkDestination, hnone, pure, Except.pure]
  · have hkey : orFail (fun e => .badRequest
        s!"invalid destination_program pubkey: {e}")
        (SolanaRpc.decodePubkey dest) = .ok destination := by
      rw [hdest]
      rfl
    simp only [checkDestination, ne_eq, hnone, not_false_eq_true, ↓reduceIte,
      hkey, SolanaRpc.ok_bind, refuseIf_eq_ok_iff, not_not, false_or]

/-- Exactly these pass: the checks of an account that holds the vault, with a
destination and a clock. -/
theorem checkVault_eq_ok_iff {vault : VaultState} {data : List UInt8}
    {amount : UInt64} {dest : String} {destination : Pubkey} {now : Int64}
    (hdata : Holds data VaultState.discriminatorLen (serialize vault))
    (hfew : vault.allowedPrograms.length ≤ maxAllowedPrograms)
    (hdest : SolanaRpc.decodePubkey dest = .ok destination) :
    (∃ remaining, checkVault data amount (some dest) (sinceEpoch now) =
      .ok remaining) ↔ vault.Passes amount destination now := by
  rw [checkVault, SolanaRpc.VaultState.fromAccountData_of_holds hdata hfew]
  change (∃ remaining, preflight (SolanaRpc.VaultState.ofVault vault) amount
    (some dest) (sinceEpoch now) = .ok remaining) ↔ _
  simp only [preflight, except_bind_eq_ok, refuseIf_eq_ok_iff, okOr_eq_ok_iff,
    exists_and_left, exists_const, not_not, gt_iff_lt, UInt64.not_lt,
    checkAgentExpiry_eq_ok_iff, checkDestination_eq_ok_iff hdest]
  constructor
  · rintro ⟨hactive, hexpiry, hperTx, _, total, htotal, hperDay, hlisted, _⟩
    rw [UInt64.le_iff_toNat_le, checkedAdd_toNat htotal] at hperDay
    exact ⟨hactive, hexpiry, hperTx, hperDay, hlisted⟩
  · rintro ⟨hactive, hexpiry, hperTx, hperDay, hlisted⟩
    obtain ⟨total, htotal, hle⟩ := exists_checkedAdd_le hperDay
    exact ⟨hactive, hexpiry, hperTx, _, total, htotal, hle, hlisted, rfl⟩

end X402Guard
