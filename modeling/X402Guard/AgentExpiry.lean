/-
Withdrawals against the settings in force when they are made.  Every check of
`guarded_withdraw` holds the withdrawal to the owner's settings but the expiry:
only a positive `agent_expires_at` is looked at, and any value can be stored.
-/
import X402Guard.TokenCustody

namespace X402Guard

open Interaction

namespace VaultState

/-- What counts as spent today: nothing, once the window is a day old. -/
def spentAt (vault : VaultState) (now : Int64) : ℕ :=
  if 86_400 ≤ now.toInt - vault.dayWindowStart.toInt then 0
  else vault.spentToday.toNat

theorem windowAt_spentToday (vault : VaultState) (now : Int64) :
    (vault.windowAt now).spentToday.toNat = vault.spentAt now := by
  unfold windowAt spentAt
  split <;> rfl

/-- The withdrawal obeys the settings of the vault.  An expiry of 0 means no
expiry. -/
structure Permits (vault : VaultState) (agent : Pubkey) (now : Int64)
    (amount : UInt64) (destination : TokenAccount) : Prop where
  active : vault.isActive = true
  agent_eq : agent = vault.agent
  notExpired : vault.agentExpiresAt = 0 ∨ now < vault.agentExpiresAt
  amount_pos : 0 < amount
  perTx : amount ≤ vault.maxSpendPerTx
  perDay : vault.spentAt now + amount.toNat ≤ vault.maxSpendPerDay.toNat
  listed : vault.allowedPrograms = [] ∨
    destination.owner ∈ vault.allowedPrograms ∨
    destination.address ∈ vault.allowedPrograms

/-- A negative expiry is not looked at. -/
def ExpiryLooksAhead (vault : VaultState) (now : Int64) : Prop :=
  0 ≤ vault.agentExpiresAt ∨ now < vault.agentExpiresAt

instance (vault : VaultState) (now : Int64) :
    Decidable (vault.ExpiryLooksAhead now) :=
  inferInstanceAs (Decidable (_ ∨ _))

/-- A withdrawal that passes the guardrails obeys the settings, up to a
negative expiry. -/
theorem Withdraws.permits_iff {vault vault' : VaultState} {agent : Pubkey}
    {now : Int64} {amount : UInt64} {destination : TokenAccount}
    (h : vault.Withdraws agent now amount destination.owner
      destination.address vault') :
    vault.Permits agent now amount destination ↔
      vault.ExpiryLooksAhead now := by
  constructor
  · intro hpermits
    rcases hpermits.notExpired with hzero | hlater
    · left
      rw [hzero]
      exact Int64.le_refl 0
    · exact Or.inr hlater
  · intro hahead
    refine ⟨h.active, h.agent_eq, ?_, h.amount_pos, h.perTx, ?_, h.listed⟩
    · rcases hahead with hnonneg | hlater
      · by_cases hzero : vault.agentExpiresAt = 0
        · exact Or.inl hzero
        · right
          apply h.notExpired
          exact Int64.lt_of_le_of_ne hnonneg (Ne.symm hzero)
      · exact Or.inr hlater
    · obtain ⟨base, total, hbase, _, htotal, hcap⟩ := h.window
      obtain ⟨_, rfl⟩ := resetWindow_eq_ok_iff.mp hbase
      rwa [UInt64.le_iff_toNat_le, htotal, windowAt_spentToday] at hcap

end VaultState

/-- Each withdrawal is signed by the agent and obeys the settings of the vault
at that moment. -/
def ObeysSettings (step : Taken Ledger LedgerAction) : Prop :=
  ∀ signers accounts amount,
    step.action = .transact signers (.guardedWithdraw accounts amount) →
    accounts.agent ∈ signers ∧ ∃ vault destination,
      step.before.vault? accounts.vault = some vault ∧
      step.before.tokens.find? accounts.destinationTokenAccount =
        some destination ∧
      vault.Permits accounts.agent step.before.now amount destination

/-- A withdrawal from a vault with a negative expiry is only made while the
clock is before it. -/
def NoNegativeExpiry (step : Taken Ledger LedgerAction) : Prop :=
  ∀ signers accounts amount vault,
    step.action = .transact signers (.guardedWithdraw accounts amount) →
    step.before.vault? accounts.vault = some vault →
    vault.ExpiryLooksAhead step.before.now

/-- A withdrawal that succeeds passed the guardrails of the vault it names. -/
theorem Ledger.guardedWithdraw_withdraws {solana : Solana}
    {ledger ledger' : Ledger} {signers : List Pubkey}
    {accounts : GuardedWithdraw} {amount : UInt64}
    (h : ledger.guardedWithdraw solana signers accounts amount =
      .ok ledger') :
    accounts.agent ∈ signers ∧ ∃ vault vault' destination,
      ledger.vault? accounts.vault = some vault ∧
      ledger.tokens.find? accounts.destinationTokenAccount =
        some destination ∧
      vault.Withdraws accounts.agent ledger.now amount destination.owner
        destination.address vault' := by
  simp only [guardedWithdraw, guarded, requireSigner, except_bind_eq_ok,
    rejectIf_eq_ok_iff, mapError_eq_ok_iff, not_not, exists_const] at h
  obtain ⟨hsigned, vault, hvault, _, _, destination, hdestination, _, _, _, _,
    vault', hstate, _⟩ := h
  obtain ⟨haddress, _, hfound⟩ := loadToken_eq_ok hdestination
  exact ⟨hsigned, vault, vault', destination, loadVault_eq_ok hvault,
    haddress ▸ hfound, VaultState.guardedWithdraw_eq_ok hstate⟩

theorem Ledger.step_obeysSettings_iff {solana : Solana}
    {ledger ledger' : Ledger} {action : LedgerAction}
    (h : ledger.step solana action = some ledger') :
    ObeysSettings ⟨ledger, action, ledger'⟩ ↔
      NoNegativeExpiry ⟨ledger, action, ledger'⟩ := by
  have hwithdraws : ∀ signers accounts amount,
      action = .transact signers (.guardedWithdraw accounts amount) →
      ledger.guardedWithdraw solana signers accounts amount =
        .ok ledger' := by
    rintro signers accounts amount rfl
    exact process_of_step h
  constructor
  · intro hobeys signers accounts amount vault haction hvault
    obtain ⟨_, found, vault', destination, hfound, hdestination, hpassed⟩ :=
      guardedWithdraw_withdraws (hwithdraws signers accounts amount haction)
    obtain ⟨_, same, receiver, hsame, hreceiver, hpermits⟩ :=
      hobeys signers accounts amount haction
    obtain rfl : found = same := Option.some.inj (hfound.symm.trans hsame)
    obtain rfl : found = vault := Option.some.inj (hfound.symm.trans hvault)
    obtain rfl : destination = receiver :=
      Option.some.inj (hdestination.symm.trans hreceiver)
    exact hpassed.permits_iff.mp hpermits
  · intro hexpiry signers accounts amount haction
    obtain ⟨hsigned, vault, vault', destination, hvault, hdestination,
      hpassed⟩ :=
      guardedWithdraw_withdraws (hwithdraws signers accounts amount haction)
    exact ⟨hsigned, vault, destination, hvault, hdestination,
      hpassed.permits_iff.mpr
        (hexpiry signers accounts amount vault haction hvault)⟩

/-- In every run the withdrawals obey the settings exactly when none is made
from a vault under a negative expiry that has passed. -/
theorem withdrawals_obeySettings_iff {solana : Solana} {now : Int64}
    {tokens : TokenTable} {steps : List (Taken Ledger LedgerAction)}
    {ledger : Ledger}
    (trail : Trail (Ledger.step solana) (Ledger.start now tokens) steps
      ledger) :
    (∀ step ∈ steps, ObeysSettings step) ↔
      ∀ step ∈ steps, NoNegativeExpiry step := by
  have hsteps := trail.forall_taken
    (P := fun step => ObeysSettings step ↔ NoNegativeExpiry step)
    fun _ _ _ htaken => Ledger.step_obeysSettings_iff htaken
  exact forall₂_congr hsteps

/-- A vault without an expiry. -/
theorem withdrawals_obeySettings_sample : ∃ steps ledger,
    Trail (Ledger.step VaultSample.chain)
      (Ledger.start VaultSample.noon VaultSample.tokens) steps ledger ∧
    steps.map Taken.action =
      [VaultSample.create, VaultSample.fund, VaultSample.withdraw] ∧
    ((∀ step ∈ steps, ObeysSettings step) ↔
      ∀ step ∈ steps, NoNegativeExpiry step) := by
  have hrun : (execTrail (Ledger.step VaultSample.chain)
      (Ledger.start VaultSample.noon VaultSample.tokens)
      [VaultSample.create, VaultSample.fund,
        VaultSample.withdraw]).isSome = true := by
    decide
  obtain ⟨⟨steps, ledger⟩, hexec⟩ := Option.isSome_iff_exists.mp hrun
  have trail := trail_of_execTrail hexec
  exact ⟨steps, ledger, trail, execTrail_actions hexec,
    withdrawals_obeySettings_iff trail⟩

/-- The agent of the sample vault expired in 1969. -/
def VaultSample.createExpired : LedgerAction :=
  .transact [owner]
    (.initializeVault ⟨owner, vault, vaultToken, usdcMintDevnet⟩
      ⟨agent, perTx, perDay, -1, []⟩)

/-- An agent that expired before the epoch still withdraws. -/
theorem withdrawals_not_obeySettings : ¬ ∀ solana now tokens steps ledger,
    Trail (Ledger.step solana) (Ledger.start now tokens) steps ledger →
    ∀ step ∈ steps, ObeysSettings step := by
  intro h
  have hrun : (execTrail (Ledger.step VaultSample.chain)
      (Ledger.start VaultSample.noon VaultSample.tokens)
      [VaultSample.createExpired, VaultSample.fund,
        VaultSample.withdraw]).map
      (fun result => result.1.map fun step => (step.action,
        (step.before.vault? VaultSample.vault).map VaultState.agentExpiresAt,
        step.before.now)) =
      some [(VaultSample.createExpired, none, VaultSample.noon),
        (VaultSample.fund, some (-1), VaultSample.noon),
        (VaultSample.withdraw, some (-1), VaultSample.noon)] := by
    decide
  obtain ⟨⟨steps, ledger⟩, hexec, hseen⟩ := Option.map_eq_some_iff.mp hrun
  have hmem : (VaultSample.withdraw, some (-1), VaultSample.noon) ∈
      steps.map fun step => (step.action,
        (step.before.vault? VaultSample.vault).map VaultState.agentExpiresAt,
        step.before.now) := by
    rw [hseen]
    simp
  obtain ⟨step, hstep, hsame⟩ := List.mem_map.mp hmem
  simp only [Prod.mk.injEq] at hsame
  obtain ⟨haction, hexpires, hnow⟩ := hsame
  obtain ⟨_, vault, _, hvault, _, hpermits⟩ :=
    h _ _ _ _ _ (trail_of_execTrail hexec) step hstep _ _ _ haction
  have hfound : step.before.vault? VaultSample.vault = some vault := hvault
  rw [hfound] at hexpires
  have hexpired : vault.agentExpiresAt = -1 := Option.some.inj hexpires
  have hnot := hpermits.notExpired
  rw [hexpired, hnow] at hnot
  exact absurd hnot (by decide)

end X402Guard
