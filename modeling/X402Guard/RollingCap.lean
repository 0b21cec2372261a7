/-
The daily cap of a vault against every window of 24 hours, wherever it lies.
The vault keeps one counter and forgets it a day after the window it counts
started, however recent the withdrawals in it are.
-/
import Mathlib.Data.Real.Basic
import X402Guard.SlidingWindow
import X402Guard.VaultChanges

namespace X402Guard

open Interaction SlidingWindow

namespace Withdrawal

/-- When the withdrawal was made, on the real time axis. -/
noncomputable def instant (withdrawal : Withdrawal) : ℝ :=
  (withdrawal.timestamp.toInt : ℝ)

/-- What it moved, in units of the token. -/
def moved (withdrawal : Withdrawal) : ℕ := withdrawal.amount.toNat

end Withdrawal

namespace Ledger

/-- What `guarded_withdraw` moved out of the vault in the 24 hours that end at
`t`. -/
noncomputable def movedInDay (ledger : Ledger) (address : Pubkey) (t : ℝ) :
    ℕ :=
  windowSum Withdrawal.instant 86_400 Withdrawal.moved t
    (ledger.withdrawals address)

/-- What it moved in the last 24 hours. -/
noncomputable def movedRecently (ledger : Ledger) (address : Pubkey) : ℕ :=
  recentSum Withdrawal.instant 86_400 Withdrawal.moved (ledger.now.toInt : ℝ)
    (ledger.withdrawals address)

end Ledger

namespace LedgerAction

/-- Does the transaction close the vault? -/
def closes (address : Pubkey) : LedgerAction → Bool
  | .transact _ (.closeVault accounts) => accounts.vault == address
  | _ => false

/-- Does the transaction withdraw from the vault? -/
def withdraws (address : Pubkey) : LedgerAction → Bool
  | .transact _ (.guardedWithdraw accounts _) => accounts.vault == address
  | _ => false

end LedgerAction

/-- No 24 hours have seen more than the cap leave the vault. -/
def RollingCap (address : Pubkey) (cap : UInt64) (ledger : Ledger) : Prop :=
  ∀ t : ℝ, ledger.movedInDay address t ≤ cap.toNat

/-- The vault is not closed, and `max_spend_per_day` is the cap. -/
def CapKept (address : Pubkey) (cap : UInt64) (ledger : Ledger)
    (action : LedgerAction) : Prop :=
  action.closes address = false ∧
    ∀ vault ∈ ledger.vault? address, vault.maxSpendPerDay = cap

/-- A withdrawal that starts a new window comes a day after every earlier
one. -/
def ResetAfterDay (address : Pubkey) (ledger : Ledger)
    (action : LedgerAction) : Prop :=
  action.withdraws address = true →
    ∀ vault ∈ ledger.vault? address,
      86_400 ≤ ledger.now.toInt - vault.dayWindowStart.toInt →
      ∀ withdrawal ∈ ledger.withdrawals address,
        withdrawal.timestamp.toInt + 86_400 ≤ ledger.now.toInt

instance (address : Pubkey) (cap : UInt64) (ledger : Ledger)
    (action : LedgerAction) : Decidable (CapKept address cap ledger action) :=
  inferInstanceAs (Decidable (_ ∧ _))

instance (address : Pubkey) (ledger : Ledger) (action : LedgerAction) :
    Decidable (ResetAfterDay address ledger action) :=
  inferInstanceAs (Decidable (_ → _))

/-- The counter never falls behind the last 24 hours. -/
structure CounterBounds (address : Pubkey) (cap : UInt64)
    (ledger : Ledger) : Prop where
  unborn : ledger.vault? address = none → ledger.withdrawals address = []
  recent : ∀ vault ∈ ledger.vault? address,
    ledger.movedRecently address ≤ vault.spentToday.toNat
  rolling : RollingCap address cap ledger

namespace VaultState

/-- A withdrawal is counted on top of what is recent, provided that a reset
finds nothing recent. -/
theorem Withdraws.counts {vault vault' : VaultState} {agent : Pubkey}
    {now : Int64} {amount : UInt64} {destAuthority destAddress : Pubkey}
    (h : vault.Withdraws agent now amount destAuthority destAddress vault')
    {items : List Withdrawal}
    (hrecent : recentSum Withdrawal.instant 86_400 Withdrawal.moved
      (now.toInt : ℝ) items ≤ vault.spentToday.toNat)
    (hreset : 86_400 ≤ now.toInt - vault.dayWindowStart.toInt →
      ∀ item ∈ items, item.timestamp.toInt + 86_400 ≤ now.toInt) :
    recentSum Withdrawal.instant 86_400 Withdrawal.moved (now.toInt : ℝ)
        items + amount.toNat ≤ vault'.spentToday.toNat ∧
      vault'.spentToday ≤ vault.maxSpendPerDay := by
  obtain ⟨base, total, hbase, rfl, htotal, hcap⟩ := h.window
  refine ⟨?_, hcap⟩
  rw [htotal]
  apply Nat.add_le_add_right
  rcases resetWindow_eq_ok hbase with ⟨hlong, rfl⟩ | ⟨_, rfl⟩
  · rw [recentSum_eq_zero]
    · exact Nat.zero_le _
    · intro item hitem
      have hold := hreset hlong item hitem
      unfold Withdrawal.instant
      exact_mod_cast hold
  · exact hrecent

end VaultState

variable {solana : Solana} {address : Pubkey} {cap : UInt64}
variable {ledger ledger' : Ledger}

/-- Time alone keeps the bounds, and so does a step that keeps the counter. -/
theorem CounterBounds.of_same (h : CounterBounds address cap ledger)
    (hnow : ledger.now.toInt ≤ ledger'.now.toInt)
    (hmoved : ledger'.withdrawals address = ledger.withdrawals address)
    (hspent : (ledger'.vault? address).map VaultState.spentToday =
      (ledger.vault? address).map VaultState.spentToday) :
    CounterBounds address cap ledger' where
  unborn := by
    intro hnone
    rw [hmoved]
    apply h.unborn
    rw [hnone] at hspent
    exact Option.map_eq_none_iff.mp hspent.symm
  recent := by
    intro vault' hvault'
    rw [Option.mem_def.mp hvault'] at hspent
    obtain ⟨vault, hvault, hsame⟩ := Option.map_eq_some_iff.mp hspent.symm
    rw [← hsame]
    refine le_trans ?_ (h.recent vault hvault)
    unfold Ledger.movedRecently
    rw [hmoved]
    apply recentSum_antitone
    · intro item _
      exact Nat.zero_le _
    · exact_mod_cast hnow
  rolling := by
    intro t
    unfold Ledger.movedInDay
    rw [hmoved]
    exact h.rolling t

/-- Nothing has been withdrawn from a vault that is only now created. -/
theorem CounterBounds.created (h : CounterBounds address cap ledger)
    (hnone : ledger.vault? address = none)
    (hmoved : ledger'.withdrawals address = ledger.withdrawals address) :
    CounterBounds address cap ledger' := by
  rw [h.unborn hnone] at hmoved
  refine ⟨fun _ => hmoved, ?_, ?_⟩
  · intro vault _
    simp [Ledger.movedRecently, hmoved]
  · intro t
    simp [Ledger.movedInDay, hmoved]

/-- A withdrawal keeps the bounds, unless it forgets a recent one. -/
theorem CounterBounds.withdraw (h : CounterBounds address cap ledger)
    {vault vault' : VaultState} {agent : Pubkey} {amount : UInt64}
    {destAuthority destAddress : Pubkey}
    (hnow : ledger'.now = ledger.now)
    (hbefore : ledger.vault? address = some vault)
    (hafter : ledger'.vault? address = some vault')
    (hmoved : ledger'.withdrawals address =
      ledger.withdrawals address ++ [⟨amount, ledger.now⟩])
    (hvault : vault.guardedWithdraw agent ledger.now amount destAuthority
      destAddress = .ok vault')
    (hcap : vault.maxSpendPerDay = cap)
    (hreset : 86_400 ≤ ledger.now.toInt - vault.dayWindowStart.toInt →
      ∀ item ∈ ledger.withdrawals address,
        item.timestamp.toInt + 86_400 ≤ ledger.now.toInt) :
    CounterBounds address cap ledger' := by
  have hrecent := h.recent vault hbefore
  obtain ⟨hcount, hle⟩ :=
    (VaultState.guardedWithdraw_eq_ok hvault).counts hrecent hreset
  rw [hcap, UInt64.le_iff_toNat_le] at hle
  refine ⟨?_, ?_, ?_⟩
  · intro hnone
    rw [hafter] at hnone
    cases hnone
  · intro other hother
    obtain rfl : vault' = other := by simpa [hafter] using hother
    unfold Ledger.movedRecently
    rw [hmoved, hnow]
    refine le_trans (recentSum_snoc_le _ _ (Nat.zero_le _)) ?_
    exact hcount
  · unfold RollingCap Ledger.movedInDay
    rw [hmoved]
    apply windowSum_snoc_le
    · intro item
      exact Nat.zero_le _
    · exact hcount.trans hle
    · exact h.rolling

/-- Every instruction keeps the bounds while the cap is kept and no reset
forgets a recent withdrawal. -/
theorem CounterBounds.transact {signers : List Pubkey}
    {instruction : Instruction} (h : CounterBounds address cap ledger)
    (hkept : CapKept address cap ledger (.transact signers instruction))
    (hreset : ResetAfterDay address ledger (.transact signers instruction))
    (hprocess : ledger.process solana signers instruction = .ok ledger') :
    CounterBounds address cap ledger' := by
  obtain ⟨hnow, moved, hchange, hmoved⟩ :=
    Ledger.process_changes hprocess address
  have hclock : ledger.now.toInt ≤ ledger'.now.toInt := by rw [hnow]
  generalize hbefore : ledger.vault? address = before at hchange
  generalize hafter : ledger'.vault? address = after at hchange
  cases hchange with
  | untouched =>
      rw [List.append_nil] at hmoved
      apply h.of_same hclock hmoved
      rw [hbefore, hafter]
  | initialized =>
      rw [List.append_nil] at hmoved
      exact h.created hbefore hmoved
  | withdrew haddress _ hvault =>
      exact h.withdraw hnow hbefore hafter hmoved hvault
        (hkept.2 _ hbefore) (hreset (beq_iff_eq.mpr haddress) _ hbefore)
  | rulesUpdated _ _ hvault =>
      rw [List.append_nil] at hmoved
      apply h.of_same hclock hmoved
      simp [hbefore, hafter, VaultState.updateRules_eq hvault,
        VaultState.withRules]
  | agentRevoked =>
      rw [List.append_nil] at hmoved
      apply h.of_same hclock hmoved
      simp [hbefore, hafter, VaultState.revokeAgent]
  | closed haddress =>
      have hopen := hkept.1
      simp [LedgerAction.closes, haddress] at hopen

theorem CounterBounds.step {action : LedgerAction}
    (h : CounterBounds address cap ledger)
    (hkept : CapKept address cap ledger action)
    (hreset : ResetAfterDay address ledger action)
    (hstep : ledger.step solana action = some ledger') :
    CounterBounds address cap ledger' := by
  rcases Ledger.step_transact hstep with
    ⟨later, rfl, hlater, rfl⟩ | ⟨signers, instruction, rfl, hprocess⟩
  · exact h.of_same (Int64.le_iff_toInt_le.mp hlater) rfl rfl
  · exact h.transact hkept hreset hprocess

theorem counterBounds_start {now : Int64}
    {tokens : KeyedTable TokenAccount TokenAccount.address} :
    CounterBounds address cap (Ledger.start now tokens) where
  unborn _ := rfl
  recent := by
    intro vault hvault
    cases hvault
  rolling := by
    intro t
    exact Nat.zero_le _

/-- No 24 hours see more than the cap leave the vault, when the counter is only
ever reset a day after the last withdrawal. -/
theorem rollingCap_of_resetAfterDay {now : Int64}
    {tokens : KeyedTable TokenAccount TokenAccount.address}
    (run : Run (Ledger.step solana)
      (fun ledger action => CapKept address cap ledger action ∧
        ResetAfterDay address ledger action)
      (Ledger.start now tokens) ledger) :
    RollingCap address cap ledger := by
  have hbounds : CounterBounds address cap ledger := by
    apply run.invariant counterBounds_start
    intro before action after h hallowed htaken
    exact h.step hallowed.1 hallowed.2 htaken
  exact hbounds.rolling

/-- At a whole second the window is one of whole seconds. -/
theorem Ledger.movedInDay_intCast (t : ℤ) :
    ledger.movedInDay address t =
      windowSum (fun withdrawal : Withdrawal => withdrawal.timestamp.toInt)
        86_400 Withdrawal.moved t (ledger.withdrawals address) := by
  unfold Ledger.movedInDay windowSum
  congr 2
  apply List.filter_congr
  intro withdrawal _
  rw [decide_eq_decide]
  unfold Withdrawal.instant
  norm_cast

/-- Twice the cap within two seconds: before and after the counter is reset, a
day after the vault was created. -/
theorem not_rollingCap : ¬ ∀ solana now tokens address cap ledger,
    Run (Ledger.step solana) (CapKept address cap) (Ledger.start now tokens)
      ledger →
    RollingCap address cap ledger := by
  intro h
  have hrun : (exec (Ledger.step VaultSample.chain)
      (fun ledger action =>
        decide (CapKept VaultSample.vault VaultSample.perDay ledger action))
      (Ledger.start VaultSample.noon VaultSample.tokens)
      [VaultSample.create, VaultSample.fund,
        .tick (VaultSample.noon + 86_399), VaultSample.withdraw,
        VaultSample.withdraw, .tick (VaultSample.noon + 86_400),
        VaultSample.withdraw, VaultSample.withdraw]).map
      (fun ledger => windowSum
        (fun withdrawal : Withdrawal => withdrawal.timestamp.toInt) 86_400
        Withdrawal.moved 1_750_086_400
        (ledger.withdrawals VaultSample.vault)) = some 400_000_000 := by
    decide
  obtain ⟨ledger, hexec, hmoved⟩ := Option.map_eq_some_iff.mp hrun
  have hcap := h _ _ _ _ _ ledger
    ((run_of_exec hexec).mono fun _ _ hok => of_decide_eq_true hok)
    (1_750_086_400 : ℤ)
  rw [Ledger.movedInDay_intCast, hmoved] at hcap
  exact absurd hcap (by decide)

/-- A full day is withdrawn at once, and again a day later. -/
theorem rollingCap_sample : ∃ ledger,
    Run (Ledger.step VaultSample.chain)
      (fun ledger action =>
        CapKept VaultSample.vault VaultSample.perDay ledger action ∧
          ResetAfterDay VaultSample.vault ledger action)
      (Ledger.start VaultSample.noon VaultSample.tokens) ledger ∧
    (ledger.withdrawals VaultSample.vault).length = 4 ∧
    RollingCap VaultSample.vault VaultSample.perDay ledger := by
  have hrun : (exec (Ledger.step VaultSample.chain)
      (fun ledger action =>
        decide (CapKept VaultSample.vault VaultSample.perDay ledger action ∧
          ResetAfterDay VaultSample.vault ledger action))
      (Ledger.start VaultSample.noon VaultSample.tokens)
      [VaultSample.create, VaultSample.fund, VaultSample.withdraw,
        VaultSample.withdraw, .tick (VaultSample.noon + 86_400),
        VaultSample.withdraw, VaultSample.withdraw]).map
      (fun ledger => (ledger.withdrawals VaultSample.vault).length) =
        some 4 := by
    decide
  obtain ⟨ledger, hexec, hlength⟩ := Option.map_eq_some_iff.mp hrun
  have run := (run_of_exec hexec).mono fun _ _ hok => of_decide_eq_true hok
  exact ⟨ledger, run, hlength, rollingCap_of_resetAfterDay run⟩

end X402Guard
