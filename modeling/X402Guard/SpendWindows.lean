/-
The daily counter of a vault against the history of its withdrawals.  The
counter is only reset inside a withdrawal that succeeds: at any time it holds
the sum of the window that is open, whatever failed or changed in between.
-/
import X402Guard.RollingCap
import X402Guard.TokenCustody
import X402Guard.TumblingWindow

namespace X402Guard

open Interaction TumblingWindow

/-- Seconds since the epoch, as an integer. -/
def Withdrawal.seconds (withdrawal : Withdrawal) : ℤ :=
  withdrawal.timestamp.toInt

abbrev DayWindow := Window Withdrawal ℤ

/-- What was withdrawn in a window. -/
def DayWindow.spent (window : DayWindow) : ℕ :=
  (window.items.map Withdrawal.moved).sum

/-- A step on the day windows of a vault.  The first one opens when the vault
is initialized, a later one at a withdrawal a day or more after the last. -/
def recordStep (address : Pubkey) (windows : List DayWindow)
    (step : Taken Ledger LedgerAction) : List DayWindow :=
  match step.action with
  | .transact _ (.initializeVault accounts _) =>
      if accounts.vault = address then [⟨step.before.now.toInt, []⟩]
      else windows
  | .transact _ (.guardedWithdraw accounts amount) =>
      if accounts.vault = address then
        put Withdrawal.seconds 86_400 ⟨amount, step.before.now⟩ windows
      else windows
  | .transact _ (.closeVault accounts) =>
      if accounts.vault = address then [] else windows
  | _ => windows

/-- The day windows of the vault at an address, the current one first. -/
def dayWindows (address : Pubkey) (steps : List (Taken Ledger LedgerAction)) :
    List DayWindow :=
  steps.foldl (recordStep address) []

@[simp] theorem dayWindows_snoc (address : Pubkey)
    (steps : List (Taken Ledger LedgerAction))
    (last : Taken Ledger LedgerAction) :
    dayWindows address (steps ++ [last]) =
      recordStep address (dayWindows address steps) last := by
  rw [dayWindows, List.foldl_append]
  rfl

/-- The vault counts the window that is open. -/
structure CountsCurrent (vault : VaultState) (windows : List DayWindow) :
    Prop where
  opened : windows.head?.map Window.openedAt =
    some vault.dayWindowStart.toInt
  counted : windows.head?.map DayWindow.spent = some vault.spentToday.toNat
  spaced : Spaced 86_400 windows

/-- A step that does not lower the daily limit of the vault. -/
def KeepsDailyLimit (address : Pubkey) (step : Taken Ledger LedgerAction) :
    Prop :=
  ∀ before ∈ step.before.vault? address,
    ∀ after ∈ step.after.vault? address,
      before.maxSpendPerDay ≤ after.maxSpendPerDay

variable {address : Pubkey}

theorem recordStep_of_target_ne {windows : List DayWindow}
    {ledger ledger' : Ledger} {signers : List Pubkey}
    {instruction : Instruction} (h : instruction.target ≠ some address) :
    recordStep address windows ⟨ledger, .transact signers instruction,
      ledger'⟩ = windows := by
  cases instruction <;> simp_all [Instruction.target, recordStep]

namespace VaultState

/-- A withdrawal is counted in the window it falls into. -/
theorem Withdraws.countsCurrent {vault vault' : VaultState} {agent : Pubkey}
    {now : Int64} {amount : UInt64} {destAuthority destAddress : Pubkey}
    (h : vault.Withdraws agent now amount destAuthority destAddress vault')
    {windows : List DayWindow} (hcounts : CountsCurrent vault windows) :
    CountsCurrent vault'
      (put Withdrawal.seconds 86_400 ⟨amount, now⟩ windows) := by
  obtain ⟨base, total, hbase, rfl, htotal, _⟩ := h.window
  cases windows with
  | nil => cases hcounts.opened
  | cons current past =>
      have hopened := Option.some.inj hcounts.opened
      have hcounted := Option.some.inj hcounts.counted
      have hspaced := hcounts.spaced.put Withdrawal.seconds 86_400
        ⟨amount, now⟩
      have hseconds : Withdrawal.seconds ⟨amount, now⟩ = now.toInt := rfl
      rcases resetWindow_eq_ok hbase with ⟨hlong, rfl⟩ | ⟨hshort, rfl⟩
      · rw [put, if_pos (by rw [hseconds]; omega)] at hspaced ⊢
        refine ⟨rfl, ?_, hspaced⟩
        simp [DayWindow.spent, Withdrawal.moved, htotal]
      · rw [put, if_neg (by rw [hseconds]; omega)] at hspaced ⊢
        refine ⟨hcounts.opened, ?_, hspaced⟩
        rw [DayWindow.spent] at hcounted
        simp [DayWindow.spent, Withdrawal.moved, htotal, ← hcounted]

end VaultState

theorem CountsCurrent.congr {vault vault' : VaultState}
    {windows : List DayWindow} (h : CountsCurrent vault windows)
    (hspent : vault'.spentToday = vault.spentToday)
    (hstart : vault'.dayWindowStart = vault.dayWindowStart) :
    CountsCurrent vault' windows := by
  obtain ⟨hopened, hcounted, hspaced⟩ := h
  refine ⟨?_, ?_, hspaced⟩
  · rw [hstart]
    exact hopened
  · rw [hspent]
    exact hcounted

/-- What an instruction does to the vault is what it does to its windows. -/
theorem VaultChange.countsCurrent {signers : List Pubkey}
    {instruction : Instruction} {before after : Option VaultState}
    {moved : List Withdrawal} {ledger ledger' : Ledger}
    {windows : List DayWindow}
    (hchange : VaultChange ledger.now signers address instruction before after
      moved)
    (hbefore : ∀ vault ∈ before, CountsCurrent vault windows) :
    ∀ vault ∈ after, CountsCurrent vault (recordStep address windows
      ⟨ledger, .transact signers instruction, ledger'⟩) := by
  cases hchange with
  | untouched hother =>
      rw [recordStep_of_target_ne hother]
      exact hbefore
  | initialized haddress _ hvault =>
      obtain ⟨_, _, _, _, _, rfl⟩ :=
        VaultState.initializeVault_eq_ok_iff.mp hvault
      rintro _ ⟨⟩
      simp only [recordStep, if_pos haddress]
      exact ⟨rfl, rfl, spaced_singleton _ _⟩
  | withdrew haddress _ hvault =>
      rintro _ ⟨⟩
      simp only [recordStep, if_pos haddress]
      exact (VaultState.guardedWithdraw_eq_ok hvault).countsCurrent
        (hbefore _ rfl)
  | rulesUpdated _ _ hvault =>
      obtain rfl := VaultState.updateRules_eq hvault
      rintro _ ⟨⟩
      exact (hbefore _ rfl).congr rfl rfl
  | @agentRevoked _ vault =>
      rintro _ ⟨⟩
      exact (hbefore vault rfl).congr rfl rfl
  | closed =>
      rintro _ ⟨⟩

theorem VaultChange.spentToday_le {now : Int64} {signers : List Pubkey}
    {instruction : Instruction} {before after : Option VaultState}
    {moved : List Withdrawal}
    (hchange : VaultChange now signers address instruction before after moved)
    (hbefore : ∀ vault ∈ before, vault.spentToday ≤ vault.maxSpendPerDay)
    (hlimit : ∀ vault ∈ before, ∀ vault' ∈ after,
      vault.maxSpendPerDay ≤ vault'.maxSpendPerDay) :
    ∀ vault ∈ after, vault.spentToday ≤ vault.maxSpendPerDay := by
  cases hchange with
  | untouched => exact hbefore
  | initialized _ _ hvault =>
      obtain ⟨_, _, _, _, _, rfl⟩ :=
        VaultState.initializeVault_eq_ok_iff.mp hvault
      rintro _ ⟨⟩
      exact UInt64.zero_le
  | withdrew _ _ hvault =>
      have hwithdraws := VaultState.guardedWithdraw_eq_ok hvault
      obtain ⟨base, total, hbase, rfl, _, hcap⟩ := hwithdraws.window
      rintro _ ⟨⟩
      exact UInt64.le_trans hcap (hlimit _ rfl _ rfl)
  | @rulesUpdated _ _ vault _ _ _ hvault =>
      have hwithin := hbefore vault rfl
      rintro _ ⟨⟩
      obtain rfl := VaultState.updateRules_eq hvault
      exact UInt64.le_trans hwithin (hlimit _ rfl _ rfl)
  | @agentRevoked _ vault =>
      rintro _ ⟨⟩
      exact hbefore vault rfl
  | closed =>
      rintro _ ⟨⟩

variable {solana : Solana} {now : Int64} {tokens : TokenTable}
variable {ledger : Ledger} {steps : List (Taken Ledger LedgerAction)}

theorem countsCurrent_of_trail
    (trail : Trail (Ledger.step solana) (Ledger.start now tokens) steps
      ledger) :
    ∀ vault ∈ ledger.vault? address,
      CountsCurrent vault (dayWindows address steps) := by
  refine Ledger.vault_of_trail (P := fun steps vault? => ∀ vault ∈ vault?,
    CountsCurrent vault (dayWindows address steps)) trail ?_ ?_ ?_
  · rintro _ ⟨⟩
  · intro steps before after later vault? hcounts
    rw [dayWindows_snoc]
    exact hcounts
  · intro steps before after signers instruction moved _ hcounts hchange
    rw [dayWindows_snoc]
    exact hchange.countsCurrent hcounts

/-- The counter is within the daily limit as long as that is not lowered. -/
theorem spentToday_le_of_trail
    (trail : Trail (Ledger.step solana) (Ledger.start now tokens) steps
      ledger)
    (hkeeps : ∀ step ∈ steps, KeepsDailyLimit address step) :
    ∀ vault ∈ ledger.vault? address,
      vault.spentToday ≤ vault.maxSpendPerDay := by
  revert hkeeps
  refine Ledger.vault_of_trail (P := fun steps vault? =>
    (∀ step ∈ steps, KeepsDailyLimit address step) → ∀ vault ∈ vault?,
      vault.spentToday ≤ vault.maxSpendPerDay) trail ?_ ?_ ?_
  · rintro _ _ ⟨⟩
  · intro steps before after later vault? hle hkeeps
    rw [List.forall_mem_append] at hkeeps
    exact hle hkeeps.1
  · intro steps before after signers instruction moved _ hle hchange hkeeps
    rw [List.forall_mem_append, List.forall_mem_singleton] at hkeeps
    exact hchange.spentToday_le (hle hkeeps.1) hkeeps.2

/-- In every run the counter of a vault is the sum of what was withdrawn since
its current window opened, the windows are a day or more apart, and the counter
is within the daily limit as long as that is not lowered. -/
theorem vault_countsCurrent {vault : VaultState}
    (trail : Trail (Ledger.step solana) (Ledger.start now tokens) steps
      ledger)
    (hvault : ledger.vault? address = some vault) :
    CountsCurrent vault (dayWindows address steps) ∧
      ((∀ step ∈ steps, KeepsDailyLimit address step) →
        vault.spentToday ≤ vault.maxSpendPerDay) := by
  constructor
  · exact countsCurrent_of_trail trail vault hvault
  · intro hkeeps
    exact spentToday_le_of_trail trail hkeeps vault hvault

/-- One withdrawal in the first window, and one that opens the second. -/
theorem vault_countsCurrent_sample : ∃ steps ledger vault,
    Trail (Ledger.step VaultSample.chain)
      (Ledger.start VaultSample.noon VaultSample.tokens) steps ledger ∧
    steps.map Taken.action = [VaultSample.create, VaultSample.fund,
      VaultSample.withdraw, .tick (VaultSample.noon + 86_400),
      VaultSample.withdraw] ∧
    ledger.vault? VaultSample.vault = some vault ∧
    vault.spentToday = VaultSample.perTx ∧
    CountsCurrent vault (dayWindows VaultSample.vault steps) ∧
    ((∀ step ∈ steps, KeepsDailyLimit VaultSample.vault step) →
      vault.spentToday ≤ vault.maxSpendPerDay) := by
  have hrun : (execTrail (Ledger.step VaultSample.chain)
      (Ledger.start VaultSample.noon VaultSample.tokens)
      [VaultSample.create, VaultSample.fund, VaultSample.withdraw,
        .tick (VaultSample.noon + 86_400), VaultSample.withdraw]).map
      (fun result => (result.2.vault? VaultSample.vault).map
        VaultState.spentToday) = some (some VaultSample.perTx) := by
    decide
  obtain ⟨⟨steps, ledger⟩, hexec, hseen⟩ := Option.map_eq_some_iff.mp hrun
  obtain ⟨vault, hvault, hspent⟩ := Option.map_eq_some_iff.mp hseen
  have trail := trail_of_execTrail hexec
  exact ⟨steps, ledger, vault, trail, execTrail_actions hexec, hvault, hspent,
    vault_countsCurrent trail hvault⟩

end X402Guard
