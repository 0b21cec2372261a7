/-
What an instruction that succeeds can do to a vault, said once: it is created,
withdraws, gets new rules, is revoked or closed, or is left alone.
-/
import X402Guard.VaultProgram

namespace X402Guard

open Interaction

/-- What a `guarded_withdraw` moved, and when. -/
structure Withdrawal where
  amount : UInt64
  timestamp : Int64
deriving DecidableEq

namespace GuardEvent

/-- The withdrawal from the vault that an event reports, if any. -/
def withdrawal? (address : Pubkey) : GuardEvent → Option Withdrawal
  | .withdrawExecuted vault _ _ amount _ timestamp =>
      if vault = address then some ⟨amount, timestamp⟩ else none
  | .agentRevoked .. => none

end GuardEvent

namespace Ledger

/-- The state of the vault at the address. -/
def vault? (ledger : Ledger) (address : Pubkey) : Option VaultState :=
  (ledger.vaults.find? address).map VaultAccount.state

/-- Everything withdrawn from the vault so far. -/
def withdrawals (ledger : Ledger) (address : Pubkey) : List Withdrawal :=
  ledger.events.filterMap (GuardEvent.withdrawal? address)

end Ledger

namespace VaultState

/-- The window a withdrawal counts in: a new one when the old one is a day old,
else the old one. -/
def windowAt (vault : VaultState) (now : Int64) : VaultState :=
  if 86_400 ≤ now.toInt - vault.dayWindowStart.toInt then
    { vault with spentToday := 0, dayWindowStart := now }
  else vault

/-- The age of the window is an `i64`, or the withdrawal fails. -/
def AgeFits (vault : VaultState) (now : Int64) : Prop :=
  -2 ^ 63 ≤ now.toInt - vault.dayWindowStart.toInt ∧
    now.toInt - vault.dayWindowStart.toInt < 2 ^ 63

theorem resetWindow_eq_ok_iff {vault base : VaultState} {now : Int64} :
    vault.resetWindow now = .ok base ↔
      vault.AgeFits now ∧ base = vault.windowAt now := by
  have hday : secondsPerDay.toInt = 86_400 := rfl
  by_cases hfits : vault.AgeFits now
  · have hsub : checkedSub now vault.dayWindowStart =
        some (now - vault.dayWindowStart) := if_pos hfits
    have hdifference := checkedSub_toInt hsub
    have hlong : now - vault.dayWindowStart ≥ secondsPerDay ↔
        86_400 ≤ now.toInt - vault.dayWindowStart.toInt := by
      rw [ge_iff_le, Int64.le_iff_toInt_le]
      omega
    simp only [resetWindow, windowAt, hsub, okOr, hfits, true_and,
      ← hlong]
    by_cases hreset : now - vault.dayWindowStart ≥ secondsPerDay
    · simp [hreset, bind, Except.bind, pure, Except.pure, eq_comm]
    · simp [hreset, bind, Except.bind, pure, Except.pure, eq_comm]
  · have hsub : checkedSub now vault.dayWindowStart = none := if_neg hfits
    simp [resetWindow, hsub, okOr, hfits, bind, Except.bind]

theorem resetWindow_eq_ok {vault base : VaultState} {now : Int64}
    (h : vault.resetWindow now = .ok base) :
    (86_400 ≤ now.toInt - vault.dayWindowStart.toInt ∧
        base = { vault with spentToday := 0, dayWindowStart := now }) ∨
      (now.toInt - vault.dayWindowStart.toInt < 86_400 ∧ base = vault) := by
  obtain ⟨_, rfl⟩ := resetWindow_eq_ok_iff.mp h
  unfold windowAt
  by_cases hlong : 86_400 ≤ now.toInt - vault.dayWindowStart.toInt
  · rw [if_pos hlong]
    exact Or.inl ⟨hlong, rfl⟩
  · rw [if_neg hlong]
    exact Or.inr ⟨by omega, rfl⟩

@[simp] theorem windowAt_maxSpendPerDay (vault : VaultState) (now : Int64) :
    (vault.windowAt now).maxSpendPerDay = vault.maxSpendPerDay := by
  unfold windowAt
  split <;> rfl

@[simp] theorem windowAt_allowedPrograms (vault : VaultState) (now : Int64) :
    (vault.windowAt now).allowedPrograms = vault.allowedPrograms := by
  unfold windowAt
  split <;> rfl

/-- What a withdrawal that passes the guardrails has shown. -/
structure Withdraws (vault : VaultState) (agent : Pubkey) (now : Int64)
    (amount : UInt64) (destAuthority destAddress : Pubkey)
    (vault' : VaultState) : Prop where
  active : vault.isActive = true
  agent_eq : agent = vault.agent
  notExpired : 0 < vault.agentExpiresAt → now < vault.agentExpiresAt
  amount_pos : 0 < amount
  perTx : amount ≤ vault.maxSpendPerTx
  listed : vault.allowedPrograms = [] ∨
    destAuthority ∈ vault.allowedPrograms ∨ destAddress ∈ vault.allowedPrograms
  window : ∃ base total, vault.resetWindow now = .ok base ∧
    vault' = { base with spentToday := total } ∧
    total.toNat = base.spentToday.toNat + amount.toNat ∧
    total ≤ vault.maxSpendPerDay

theorem guardedWithdraw_eq_ok {vault vault' : VaultState} {agent : Pubkey}
    {now : Int64} {amount : UInt64} {destAuthority destAddress : Pubkey}
    (h : vault.guardedWithdraw agent now amount destAuthority destAddress =
      .ok vault') :
    vault.Withdraws agent now amount destAuthority destAddress vault' := by
  simp only [guardedWithdraw, except_bind_eq_ok, rejectIf_eq_ok_iff,
    okOr_eq_ok_iff, exists_and_left, exists_const, not_not] at h
  obtain ⟨hactive, hagent, hexpiry, hpos, hperTx, base, hbase, total, htotal,
    hcap, hlisted, h⟩ := h
  cases h
  obtain ⟨_, hwindow⟩ := resetWindow_eq_ok_iff.mp hbase
  rw [hwindow, windowAt_maxSpendPerDay] at hcap
  rw [hwindow, windowAt_allowedPrograms] at hlisted
  refine ⟨hactive, hagent, ?_, hpos, hperTx, ?_,
    ⟨base, total, hbase, rfl, checkedAdd_toNat htotal, hcap⟩⟩
  · intro hexpires
    by_contra hlate
    exact hexpiry ⟨hexpires, hlate⟩
  · by_cases hnone : vault.allowedPrograms = []
    · exact Or.inl hnone
    · by_contra hnot
      rw [not_or] at hnot
      exact hlisted ⟨hnone, hnot.2⟩

/-- A withdrawal changes the counter and its window only. -/
theorem Withdraws.frame {vault vault' : VaultState} {agent : Pubkey}
    {now : Int64} {amount : UInt64} {destAuthority destAddress : Pubkey}
    (h : vault.Withdraws agent now amount destAuthority destAddress vault') :
    ∃ spent start,
      vault' = { vault with spentToday := spent, dayWindowStart := start } := by
  obtain ⟨base, total, hbase, rfl, _⟩ := h.window
  refine ⟨total, base.dayWindowStart, ?_⟩
  rcases resetWindow_eq_ok hbase with ⟨_, rfl⟩ | ⟨_, rfl⟩
  · rfl
  · rfl

/-- The rules as an update leaves them. -/
def withRules (vault : VaultState) (params : UpdateRulesParams) :
    VaultState :=
  { vault with
    agent := params.newAgent.getD vault.agent
    maxSpendPerTx := params.newMaxSpendPerTx.getD vault.maxSpendPerTx
    maxSpendPerDay := params.newMaxSpendPerDay.getD vault.maxSpendPerDay
    allowedPrograms := params.newAllowedPrograms.getD vault.allowedPrograms
    agentExpiresAt := params.newAgentExpiresAt.getD vault.agentExpiresAt
    isActive := params.newIsActive.getD vault.isActive }

/-- Exactly these updates succeed, whatever fields they provide. -/
theorem updateRules_eq_ok_iff {vault vault' : VaultState}
    {params : UpdateRulesParams} :
    vault.updateRules params = .ok vault' ↔
      params.newAgent ≠ some .zero ∧ params.newMaxSpendPerTx ≠ some 0 ∧
      params.newMaxSpendPerDay ≠ some 0 ∧
      (vault.withRules params).maxSpendPerTx ≤
        (vault.withRules params).maxSpendPerDay ∧
      (∀ programs ∈ params.newAllowedPrograms,
        programs.length ≤ maxAllowedPrograms) ∧
      vault' = vault.withRules params := by
  simp only [updateRules, except_bind_eq_ok, rejectIf_eq_ok_iff,
    exists_and_left, exists_const, not_not, ge_iff_le, not_exists, not_and]
  rw [eq_comm (a := vault')]
  simp [withRules, pure, Except.pure]

theorem updateRules_eq {vault vault' : VaultState}
    {params : UpdateRulesParams} (h : vault.updateRules params = .ok vault') :
    vault' = vault.withRules params := by
  obtain ⟨_, _, _, _, _, hupdated⟩ := updateRules_eq_ok_iff.mp h
  exact hupdated

/-- Exactly these parameters make a vault. -/
theorem initializeVault_eq_ok_iff {params : InitializeVaultParams}
    {owner : Pubkey} {bump : UInt8} {now : Int64} {vault : VaultState} :
    initializeVault params owner bump now = .ok vault ↔
      params.agent ≠ .zero ∧ 0 < params.maxSpendPerTx ∧
      0 < params.maxSpendPerDay ∧
      params.maxSpendPerTx ≤ params.maxSpendPerDay ∧
      params.allowedPrograms.length ≤ maxAllowedPrograms ∧
      vault = {
        owner, bump
        agent := params.agent
        maxSpendPerTx := params.maxSpendPerTx
        maxSpendPerDay := params.maxSpendPerDay
        spentToday := 0
        dayWindowStart := now
        agentExpiresAt := params.agentExpiresAt
        allowedPrograms := params.allowedPrograms
        isActive := true
        reserved := .replicate 64 0 } := by
  simp only [initializeVault, except_bind_eq_ok, rejectIf_eq_ok_iff,
    exists_and_left, exists_const, not_not, ge_iff_le, gt_iff_lt, and_assoc]
  rw [eq_comm (a := vault)]
  simp [pure, Except.pure]

end VaultState

/-- The address of the vault whose state the instruction changes, if any. -/
def Instruction.target : Instruction → Option Pubkey
  | .initializeVault accounts _ => some accounts.vault
  | .deposit .. => none
  | .guardedWithdraw accounts _ => some accounts.vault
  | .updateRules accounts _ => some accounts.vault
  | .revokeAgent accounts => some accounts.vault
  | .closeVault accounts => some accounts.vault

/-- `VaultChange now signers address instruction before after moved`: the
instruction can take the vault at the address from `before` to `after`, and
`moved` is what it withdraws from it. -/
inductive VaultChange (now : Int64) (signers : List Pubkey)
    (address : Pubkey) : Instruction → Option VaultState →
      Option VaultState → List Withdrawal → Prop
  | untouched {instruction : Instruction} {vault? : Option VaultState}
      (hother : instruction.target ≠ some address) :
      VaultChange now signers address instruction vault? vault? []
  | initialized {accounts : InitializeVault} {params : InitializeVaultParams}
      {bump : UInt8} {vault : VaultState} (haddress : accounts.vault = address)
      (hsigned : accounts.owner ∈ signers)
      (hvault : VaultState.initializeVault params accounts.owner bump now =
        .ok vault) :
      VaultChange now signers address (.initializeVault accounts params) none
        (some vault) []
  | withdrew {accounts : GuardedWithdraw} {amount : UInt64}
      {destAuthority destAddress : Pubkey} {vault vault' : VaultState}
      (haddress : accounts.vault = address)
      (hsigned : accounts.agent ∈ signers)
      (hvault : vault.guardedWithdraw accounts.agent now amount destAuthority
        destAddress = .ok vault') :
      VaultChange now signers address (.guardedWithdraw accounts amount)
        (some vault) (some vault') [⟨amount, now⟩]
  | rulesUpdated {accounts : UpdateRules} {params : UpdateRulesParams}
      {vault vault' : VaultState} (haddress : accounts.vault = address)
      (hsigned : vault.owner ∈ signers)
      (hvault : vault.updateRules params = .ok vault') :
      VaultChange now signers address (.updateRules accounts params)
        (some vault) (some vault') []
  | agentRevoked {accounts : RevokeAgent} {vault : VaultState}
      (haddress : accounts.vault = address)
      (hsigned : vault.owner ∈ signers) :
      VaultChange now signers address (.revokeAgent accounts) (some vault)
        (some vault.revokeAgent) []
  | closed {accounts : CloseVault} {vault : VaultState}
      (haddress : accounts.vault = address)
      (hsigned : vault.owner ∈ signers) :
      VaultChange now signers address (.closeVault accounts) (some vault)
        none []

namespace Ledger

variable {solana : Solana} {ledger ledger' : Ledger}

theorem loadVault_eq_ok {address : Pubkey} {vault : VaultState}
    (h : ledger.loadVault solana address = .ok vault) :
    ledger.vault? address = some vault := by
  simp only [loadVault, except_bind_eq_ok, okOr_eq_ok_iff, rejectIf_eq_ok_iff,
    exists_const] at h
  obtain ⟨account, haccount, _, h⟩ := h
  cases h
  simp [vault?, haccount]

theorem loadOwnVault_eq_ok {address owner : Pubkey} {vault : VaultState}
    (h : ledger.loadOwnVault solana address owner = .ok vault) :
    ledger.vault? address = some vault ∧ vault.owner = owner := by
  simp only [loadOwnVault, except_bind_eq_ok, rejectIf_eq_ok_iff, not_not,
    exists_const] at h
  obtain ⟨loaded, hloaded, howner, h⟩ := h
  cases h
  exact ⟨loadVault_eq_ok hloaded, howner⟩

/-- What an instruction has to show of the vault at an address. -/
def Changes (ledger : Ledger) (signers : List Pubkey) (address : Pubkey)
    (instruction : Instruction) (ledger' : Ledger) : Prop :=
  ledger'.now = ledger.now ∧ ∃ moved,
    VaultChange ledger.now signers address instruction
      (ledger.vault? address) (ledger'.vault? address) moved ∧
    ledger'.withdrawals address = ledger.withdrawals address ++ moved

/-- One that names another vault and leaves this one alone. -/
theorem Changes.untouched {signers : List Pubkey} {address : Pubkey}
    {instruction : Instruction}
    (hother : instruction.target ≠ some address)
    (hnow : ledger'.now = ledger.now)
    (hvault : ledger'.vault? address = ledger.vault? address)
    (hmoved : ledger'.withdrawals address = ledger.withdrawals address) :
    ledger.Changes signers address instruction ledger' := by
  refine ⟨hnow, [], ?_, by rw [hmoved, List.append_nil]⟩
  rw [hvault]
  exact .untouched hother

/-- Replacing the state of a vault is seen at its own address only. -/
theorem Changes.replaced {signers : List Pubkey} {address target : Pubkey}
    {instruction : Instruction} {vault vault' : VaultState}
    {moved : List Withdrawal} (htarget : instruction.target = some target)
    (hbefore : ledger.vault? target = some vault)
    (hnow : ledger'.now = ledger.now)
    (hvaults : ledger'.vaults = ledger.vaults.replace ⟨target, vault'⟩)
    (hmoved : ledger'.withdrawals address = ledger.withdrawals address ++
      if target = address then moved else [])
    (hchange : target = address → VaultChange ledger.now signers address
      instruction (some vault) (some vault') moved) :
    ledger.Changes signers address instruction ledger' := by
  obtain ⟨account, haccount, _⟩ := Option.map_eq_some_iff.mp hbefore
  by_cases haddress : target = address
  · rw [if_pos haddress] at hmoved
    refine ⟨hnow, moved, ?_, hmoved⟩
    have hafter : ledger'.vault? address = some vault' := by
      rw [haddress] at haccount
      simp [vault?, hvaults, KeyedTable.find?_replace, haddress, haccount]
    rw [hafter, ← haddress, hbefore, haddress]
    exact hchange haddress
  · rw [if_neg haddress, List.append_nil] at hmoved
    have hother : instruction.target ≠ some address := by
      rwa [htarget, ne_eq, Option.some.injEq]
    refine .untouched hother hnow ?_ hmoved
    simp [vault?, hvaults, KeyedTable.find?_replace, haddress]

theorem initializeVault_changes {signers : List Pubkey}
    {accounts : InitializeVault} {params : InitializeVaultParams}
    (h : ledger.initializeVault solana signers accounts params = .ok ledger')
    (address : Pubkey) : ledger.Changes signers address
      (.initializeVault accounts params) ledger' := by
  simp only [initializeVault, guarded, requireSigner, except_bind_eq_ok,
    rejectIf_eq_ok_iff, mapError_eq_ok_iff, not_not, exists_const] at h
  obtain ⟨hsigned, _, _, _, _, _, _, state, hstate, h⟩ := h
  split at h
  · rename_i hnew
    split at h
    · cases h
      by_cases haddress : accounts.vault = address
      · refine ⟨rfl, [], ?_, (List.append_nil _).symm⟩
        have hbefore : ledger.vault? address = none := by
          rw [← haddress]
          simp [vault?, KeyedTable.find?_eq_none_iff.mpr hnew]
        rw [hbefore]
        simp only [vault?, KeyedTable.find?_insert, haddress, ↓reduceIte,
          Option.map_some]
        exact .initialized haddress hsigned hstate
      · refine .untouched ?_ ?_ ?_ ?_
        · simpa [Instruction.target] using haddress
        · rfl
        · simp [vault?, KeyedTable.find?_insert, haddress]
        · rfl
    · cases h
  · cases h

theorem deposit_changes {signers : List Pubkey} {accounts : Deposit}
    {amount : UInt64}
    (h : ledger.deposit solana signers accounts amount = .ok ledger')
    (address : Pubkey) :
    ledger.Changes signers address (.deposit accounts amount) ledger' := by
  simp only [deposit, except_bind_eq_ok] at h
  obtain ⟨_, _, _, _, _, _, _, _, _, _, _, _, tokens, _, h⟩ := h
  cases h
  exact .untouched (by simp [Instruction.target]) rfl rfl rfl

theorem guardedWithdraw_changes {signers : List Pubkey}
    {accounts : GuardedWithdraw} {amount : UInt64}
    (h : ledger.guardedWithdraw solana signers accounts amount = .ok ledger')
    (address : Pubkey) :
    ledger.Changes signers address (.guardedWithdraw accounts amount)
      ledger' := by
  simp only [guardedWithdraw, guarded, requireSigner, except_bind_eq_ok,
    rejectIf_eq_ok_iff, mapError_eq_ok_iff, not_not, exists_const] at h
  obtain ⟨hsigned, vault, hvault, _, _, destination, _, _, _, _, _, state,
    hstate, tokens, _, h⟩ := h
  cases h
  refine Changes.replaced rfl (loadVault_eq_ok hvault) rfl rfl ?_
    fun haddress => .withdrew haddress hsigned hstate
  by_cases haddress : accounts.vault = address
  · simp [withdrawals, GuardEvent.withdrawal?, haddress]
  · simp [withdrawals, GuardEvent.withdrawal?, haddress]

theorem updateRules_changes {signers : List Pubkey} {accounts : UpdateRules}
    {params : UpdateRulesParams}
    (h : ledger.updateRules solana signers accounts params = .ok ledger')
    (address : Pubkey) :
    ledger.Changes signers address (.updateRules accounts params)
      ledger' := by
  simp only [updateRules, guarded, requireSigner, except_bind_eq_ok,
    rejectIf_eq_ok_iff, mapError_eq_ok_iff, not_not, exists_const] at h
  obtain ⟨hsigned, vault, hvault, state, hstate, h⟩ := h
  cases h
  obtain ⟨hbefore, howner⟩ := loadOwnVault_eq_ok hvault
  refine Changes.replaced rfl hbefore rfl rfl ?_
    fun haddress => .rulesUpdated haddress (howner ▸ hsigned) hstate
  simp [withdrawals]

theorem revokeAgent_changes {signers : List Pubkey} {accounts : RevokeAgent}
    (h : ledger.revokeAgent solana signers accounts = .ok ledger')
    (address : Pubkey) :
    ledger.Changes signers address (.revokeAgent accounts) ledger' := by
  simp only [revokeAgent, requireSigner, except_bind_eq_ok,
    rejectIf_eq_ok_iff, not_not, exists_const] at h
  obtain ⟨hsigned, vault, hvault, h⟩ := h
  cases h
  obtain ⟨hbefore, howner⟩ := loadOwnVault_eq_ok hvault
  refine Changes.replaced rfl hbefore rfl rfl ?_
    fun haddress => .agentRevoked haddress (howner ▸ hsigned)
  simp [withdrawals, GuardEvent.withdrawal?]

/-- A vault that is closed: what was loaded, the account as the transfer left
it, and the accounts that remain. -/
theorem closeVault_eq_ok {signers : List Pubkey} {accounts : CloseVault}
    (h : ledger.closeVault solana signers accounts = .ok ledger') :
    accounts.owner ∈ signers ∧ ∃ vault vaultToken ownerToken drained tokens,
      ledger.loadOwnVault solana accounts.vault accounts.owner = .ok vault ∧
      ledger.loadTokenOf accounts.vaultTokenAccount accounts.usdcMint
        accounts.vault = .ok vaultToken ∧
      ledger.loadTokenOf accounts.ownerTokenAccount accounts.usdcMint
        accounts.owner = .ok ownerToken ∧
      ((0 < vaultToken.amount ∧ TokenAccount.transfer ledger.tokens
          accounts.vaultTokenAccount accounts.ownerTokenAccount accounts.vault
          vaultToken.amount = .ok drained) ∨
        (vaultToken.amount = 0 ∧ drained = ledger.tokens)) ∧
      TokenAccount.closeAccount drained accounts.vaultTokenAccount
        accounts.vault = .ok tokens ∧
      ledger' = { ledger with
        vaults := ledger.vaults.erase accounts.vault
        tokens := tokens } := by
  simp only [closeVault, requireSigner, except_bind_eq_ok,
    rejectIf_eq_ok_iff, not_not, exists_const] at h
  obtain ⟨hsigned, vault, hvault, vaultToken, hvaultToken, ownerToken,
    hownerToken, _, _, h⟩ := h
  refine ⟨hsigned, vault, vaultToken, ownerToken, ?_⟩
  split at h
  · rename_i hpos
    simp only [except_bind_eq_ok] at h
    obtain ⟨drained, hdrained, tokens, htokens, h⟩ := h
    cases h
    exact ⟨drained, tokens, hvault, hvaultToken, hownerToken,
      Or.inl ⟨hpos, hdrained⟩, htokens, rfl⟩
  · rename_i hzero
    simp only [except_bind_eq_ok] at h
    obtain ⟨drained, hdrained, tokens, htokens, h⟩ := h
    cases hdrained
    cases h
    refine ⟨ledger.tokens, tokens, hvault, hvaultToken, hownerToken,
      Or.inr ⟨?_, rfl⟩, htokens, rfl⟩
    by_contra hne
    exact hzero (UInt64.pos_iff_ne_zero.mpr hne)

theorem closeVault_changes {signers : List Pubkey} {accounts : CloseVault}
    (h : ledger.closeVault solana signers accounts = .ok ledger')
    (address : Pubkey) :
    ledger.Changes signers address (.closeVault accounts) ledger' := by
  obtain ⟨hsigned, vault, _, _, _, tokens, hvault, _, _, _, _, rfl⟩ :=
    closeVault_eq_ok h
  obtain ⟨hbefore, howner⟩ := loadOwnVault_eq_ok hvault
  by_cases haddress : accounts.vault = address
  · refine ⟨rfl, [], ?_, (List.append_nil _).symm⟩
    rw [haddress] at hbefore
    rw [hbefore]
    simp only [vault?, haddress, KeyedTable.find?_erase, ↓reduceIte,
      Option.map_none]
    exact .closed haddress (howner ▸ hsigned)
  · refine .untouched ?_ ?_ ?_ ?_
    · simpa [Instruction.target] using haddress
    · rfl
    · simp [vault?, KeyedTable.find?_erase, Ne.symm haddress]
    · rfl

/-- Every instruction that succeeds makes one of the changes to each vault. -/
theorem process_changes {signers : List Pubkey} {instruction : Instruction}
    (h : ledger.process solana signers instruction = .ok ledger')
    (address : Pubkey) :
    ledger.Changes signers address instruction ledger' := by
  cases instruction with
  | initializeVault accounts params => exact initializeVault_changes h address
  | deposit accounts amount => exact deposit_changes h address
  | guardedWithdraw accounts amount => exact guardedWithdraw_changes h address
  | updateRules accounts params => exact updateRules_changes h address
  | revokeAgent accounts => exact revokeAgent_changes h address
  | closeVault accounts => exact closeVault_changes h address

theorem step_transact {action : LedgerAction}
    (h : ledger.step solana action = some ledger') :
    (∃ later, action = .tick later ∧ ledger.now ≤ later ∧
        ledger' = { ledger with now := later }) ∨
      ∃ signers instruction, action = .transact signers instruction ∧
        ledger.process solana signers instruction = .ok ledger' := by
  cases action with
  | tick later =>
      simp only [step, Option.ite_none_right_eq_some,
        Option.some.injEq] at h
      exact Or.inl ⟨later, rfl, h.1, h.2.symm⟩
  | transact signers instruction =>
      refine Or.inr ⟨signers, instruction, rfl, ?_⟩
      rw [step] at h
      cases hprocess : ledger.process solana signers instruction with
      | error => simp [hprocess, Except.toOption] at h
      | ok result =>
          simp only [hprocess, Except.toOption, Option.some.injEq] at h
          rw [h]

/-- A transaction that is taken is one that the program processes. -/
theorem process_of_step {signers : List Pubkey} {instruction : Instruction}
    (h : ledger.step solana (.transact signers instruction) = some ledger') :
    ledger.process solana signers instruction = .ok ledger' := by
  rcases step_transact h with ⟨_, haction, _⟩ | ⟨_, _, haction, hprocess⟩
  · cases haction
  · cases haction
    exact hprocess

/-- The clock never goes back before the start of a run. -/
theorem start_le_of_trail {now : Int64}
    {tokens : KeyedTable TokenAccount TokenAccount.address}
    {steps : List (Taken Ledger LedgerAction)}
    (trail : Trail (Ledger.step solana) (Ledger.start now tokens) steps
      ledger) : now.toInt ≤ ledger.now.toInt := by
  induction trail with
  | nil => exact Int.le_refl _
  | snoc _ taken ih =>
      rcases step_transact taken with
        ⟨later, rfl, hlater, rfl⟩ | ⟨signers, instruction, rfl, hprocess⟩
      · exact Int.le_trans ih (Int64.le_iff_toInt_le.mp hlater)
      · rwa [(process_changes hprocess .zero).1]

/-- What holds before a vault exists, is left alone by the clock and kept by
every change of the vault, holds of the vault in every run. -/
theorem vault_of_trail {address : Pubkey} {now : Int64}
    {tokens : KeyedTable TokenAccount TokenAccount.address}
    {steps : List (Taken Ledger LedgerAction)}
    {P : List (Taken Ledger LedgerAction) → Option VaultState → Prop}
    (trail : Trail (Ledger.step solana) (Ledger.start now tokens) steps ledger)
    (hstart : P [] none)
    (htick : ∀ steps before after later vault?, P steps vault? →
      P (steps ++ [⟨before, .tick later, after⟩]) vault?)
    (htransact : ∀ steps (before after : Ledger) signers instruction moved,
      now.toInt ≤ before.now.toInt → P steps (before.vault? address) →
      VaultChange before.now signers address instruction
        (before.vault? address) (after.vault? address) moved →
      P (steps ++ [⟨before, .transact signers instruction, after⟩])
        (after.vault? address)) :
    P steps (ledger.vault? address) := by
  induction trail with
  | nil => exact hstart
  | snoc trail taken ih =>
      rcases step_transact taken with
        ⟨later, rfl, _, rfl⟩ | ⟨signers, instruction, rfl, hprocess⟩
      · exact htick _ _ _ later _ ih
      · obtain ⟨_, moved, hchange, _⟩ := process_changes hprocess address
        exact htransact _ _ _ signers instruction moved
          (start_le_of_trail trail) ih hchange

end Ledger

end X402Guard
