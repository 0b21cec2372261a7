/-
What the daily cap of a vault does bound.  The counter can be reset in the
middle of any 24 hours, but its windows are a day apart: an interval of k days
meets k + 1 of them and sees at most k + 1 caps.
-/
import Mathlib.Algebra.Order.Archimedean.Real.Basic
import X402Guard.SpendWindows

namespace X402Guard

open Interaction SlidingWindow TumblingWindow

/-- What `guarded_withdraw` moved out of the vault in the days that end at
`t`. -/
noncomputable def Ledger.movedInDays (ledger : Ledger) (address : Pubkey)
    (days : ℕ) (t : ℝ) : ℕ :=
  windowSum Withdrawal.instant (days * 86_400 : ℕ) Withdrawal.moved t
    (ledger.withdrawals address)

/-- The vault is not closed, and `max_spend_per_day` is at most the cap. -/
def CapAtMost (address : Pubkey) (cap : UInt64) (ledger : Ledger)
    (action : LedgerAction) : Prop :=
  action.closes address = false ∧
    ∀ vault ∈ ledger.vault? address, vault.maxSpendPerDay ≤ cap

instance (address : Pubkey) (cap : UInt64) (ledger : Ledger)
    (action : LedgerAction) :
    Decidable (CapAtMost address cap ledger action) :=
  inferInstanceAs (Decidable (_ ∧ _))

/-- The withdrawals of a vault, each in the window it counted in. -/
structure Windowed (address : Pubkey) (cap : UInt64) (ledger : Ledger)
    (windows : List DayWindow) : Prop where
  perm : (windows.flatMap Window.items).Perm (ledger.withdrawals address)
  holds : ∀ window ∈ windows, window.Holds Withdrawal.seconds 86_400
  within : ∀ window ∈ windows, DayWindow.spent window ≤ cap.toNat
  spaced : Spaced 86_400 windows
  counts : ∀ vault ∈ ledger.vault? address, CountsCurrent vault windows
  opened : ∀ vault ∈ ledger.vault? address,
    vault.dayWindowStart.toInt ≤ ledger.now.toInt
  unborn : ledger.vault? address = none → windows = []

variable {solana : Solana} {address : Pubkey} {cap : UInt64}
variable {ledger ledger' : Ledger} {windows : List DayWindow}

namespace Windowed

/-- Time alone keeps the windows, and so does a step that keeps the counter. -/
theorem of_same (h : Windowed address cap ledger windows)
    (hnow : ledger.now.toInt ≤ ledger'.now.toInt)
    (hmoved : ledger'.withdrawals address = ledger.withdrawals address)
    (hsame : (ledger'.vault? address).map (fun vault =>
        (vault.spentToday, vault.dayWindowStart)) =
      (ledger.vault? address).map fun vault =>
        (vault.spentToday, vault.dayWindowStart)) :
    Windowed address cap ledger' windows := by
  have hbefore : ∀ vault' ∈ ledger'.vault? address,
      ∃ vault ∈ ledger.vault? address,
        vault'.spentToday = vault.spentToday ∧
          vault'.dayWindowStart = vault.dayWindowStart := by
    intro vault' hvault'
    rw [Option.mem_def.mp hvault'] at hsame
    obtain ⟨vault, hvault, heq⟩ := Option.map_eq_some_iff.mp hsame.symm
    obtain ⟨hspent, hstart⟩ := Prod.mk.inj heq
    exact ⟨vault, hvault, hspent.symm, hstart.symm⟩
  exact {
    perm := hmoved ▸ h.perm
    holds := h.holds
    within := h.within
    spaced := h.spaced
    counts := by
      intro vault' hvault'
      obtain ⟨vault, hvault, hspent, hstart⟩ := hbefore vault' hvault'
      exact (h.counts vault hvault).congr hspent hstart
    opened := by
      intro vault' hvault'
      obtain ⟨vault, hvault, _, hstart⟩ := hbefore vault' hvault'
      rw [hstart]
      exact (h.opened vault hvault).trans hnow
    unborn := by
      intro hnone
      apply h.unborn
      rw [hnone] at hsame
      exact Option.map_eq_none_iff.mp hsame.symm }

/-- The first window opens with the vault. -/
theorem created (h : Windowed address cap ledger windows) {vault : VaultState}
    (hnone : ledger.vault? address = none)
    (hafter : ledger'.vault? address = some vault)
    (hmoved : ledger'.withdrawals address = ledger.withdrawals address)
    (hspent : vault.spentToday = 0)
    (hstart : vault.dayWindowStart = ledger'.now) :
    Windowed address cap ledger' [⟨ledger'.now.toInt, []⟩] := by
  have hperm := h.perm
  rw [h.unborn hnone, ← hmoved] at hperm
  exact {
    perm := hperm
    holds := by simp [Window.Holds]
    within := by simp [DayWindow.spent]
    spaced := spaced_singleton _ _
    counts := by
      intro other hother
      obtain rfl : vault = other := by simpa [hafter] using hother
      refine ⟨?_, ?_, spaced_singleton _ _⟩
      · rw [hstart]
        rfl
      · rw [hspent]
        rfl
    opened := by
      intro other hother
      obtain rfl : vault = other := by simpa [hafter] using hother
      rw [hstart]
    unborn := by
      intro hnone'
      rw [hafter] at hnone'
      cases hnone' }

/-- A withdrawal counts in the window it falls into, within the cap. -/
theorem withdraw (h : Windowed address cap ledger windows)
    {vault vault' : VaultState} {agent : Pubkey} {amount : UInt64}
    {destAuthority destAddress : Pubkey} (hnow : ledger'.now = ledger.now)
    (hbefore : ledger.vault? address = some vault)
    (hafter : ledger'.vault? address = some vault')
    (hmoved : ledger'.withdrawals address =
      ledger.withdrawals address ++ [⟨amount, ledger.now⟩])
    (hvault : vault.guardedWithdraw agent ledger.now amount destAuthority
      destAddress = .ok vault')
    (hcap : vault.maxSpendPerDay ≤ cap) :
    Windowed address cap ledger'
      (put Withdrawal.seconds 86_400 ⟨amount, ledger.now⟩ windows) := by
  have hcounts := h.counts vault hbefore
  have hopened := h.opened vault hbefore
  have hwithdraws := VaultState.guardedWithdraw_eq_ok hvault
  have hcounts' := hwithdraws.countsCurrent hcounts
  cases windows with
  | nil => cases hcounts.opened
  | cons current past =>
      have hstart : current.openedAt = vault.dayWindowStart.toInt :=
        Option.some.inj hcounts.opened
      obtain ⟨base, total, hbase, rfl, _, hle⟩ := hwithdraws.window
      exact {
        perm := by
          rw [hmoved]
          exact (put_perm _ _ _ current past).trans (h.perm.append_right _)
        holds := put_holds _ _ h.holds (by rw [hstart]; exact hopened)
          (Int.lt_add_of_pos_right _ (by decide))
        within := by
          intro window hwindow
          rcases head?_or_mem_of_put _ _ hwindow with hhead | hold
          · have hspent := hcounts'.counted
            rw [hhead] at hspent
            rw [Option.some.inj hspent]
            exact UInt64.le_iff_toNat_le.mp (UInt64.le_trans hle hcap)
          · exact h.within window hold
        spaced := h.spaced.put _ _ _
        counts := by
          intro other hother
          obtain rfl : _ = other := by simpa [hafter] using hother
          exact hcounts'
        opened := by
          intro other hother
          obtain rfl : _ = other := by simpa [hafter] using hother
          rw [hnow]
          rcases VaultState.resetWindow_eq_ok hbase with
            ⟨_, rfl⟩ | ⟨_, rfl⟩
          · exact Int.le_refl _
          · exact hopened
        unborn := by
          intro hnone
          rw [hafter] at hnone
          cases hnone }

/-- Every instruction keeps the windows, while the vault is not closed and its
limit is at most the cap. -/
theorem transact {signers : List Pubkey} {instruction : Instruction}
    (h : Windowed address cap ledger windows)
    (hallowed : CapAtMost address cap ledger (.transact signers instruction))
    (hprocess : ledger.process solana signers instruction = .ok ledger') :
    ∃ windows', Windowed address cap ledger' windows' := by
  obtain ⟨hnow, moved, hchange, hmoved⟩ :=
    Ledger.process_changes hprocess address
  have hclock : ledger.now.toInt ≤ ledger'.now.toInt := by rw [hnow]
  generalize hbefore : ledger.vault? address = before at hchange
  generalize hafter : ledger'.vault? address = after at hchange
  cases hchange with
  | untouched =>
      rw [List.append_nil] at hmoved
      exact ⟨windows, h.of_same hclock hmoved (by rw [hbefore, hafter])⟩
  | initialized _ _ hvault =>
      rw [List.append_nil] at hmoved
      obtain ⟨_, _, _, _, _, rfl⟩ :=
        VaultState.initializeVault_eq_ok_iff.mp hvault
      exact ⟨_, h.created hbefore hafter hmoved rfl hnow.symm⟩
  | withdrew _ _ hvault =>
      exact ⟨_, h.withdraw hnow hbefore hafter hmoved hvault
        (hallowed.2 _ hbefore)⟩
  | rulesUpdated _ _ hvault =>
      rw [List.append_nil] at hmoved
      refine ⟨windows, h.of_same hclock hmoved ?_⟩
      simp [hbefore, hafter, VaultState.updateRules_eq hvault,
        VaultState.withRules]
  | agentRevoked =>
      rw [List.append_nil] at hmoved
      refine ⟨windows, h.of_same hclock hmoved ?_⟩
      simp [hbefore, hafter, VaultState.revokeAgent]
  | closed haddress =>
      have hopen := hallowed.1
      simp [LedgerAction.closes, haddress] at hopen

theorem of_run {now : Int64} {tokens : TokenTable}
    (run : Run (Ledger.step solana) (CapAtMost address cap)
      (Ledger.start now tokens) ledger) :
    ∃ windows, Windowed address cap ledger windows := by
  refine run.invariant (I := fun ledger =>
    ∃ windows, Windowed address cap ledger windows) ⟨[], ?_⟩ ?_
  · exact {
      perm := .refl _
      holds := by simp
      within := by simp
      spaced := List.isChain_nil
      counts := fun _ hvault => by cases hvault
      opened := fun _ hvault => by cases hvault
      unborn := fun _ => rfl }
  · rintro before action after ⟨windows, h⟩ hallowed htaken
    rcases Ledger.step_transact htaken with
      ⟨later, rfl, hlater, rfl⟩ | ⟨signers, instruction, rfl, hprocess⟩
    · exact ⟨windows,
        h.of_same (Int64.le_iff_toInt_le.mp hlater) rfl rfl⟩
    · exact h.transact hallowed hprocess

end Windowed

/-- Timestamps are whole seconds. -/
theorem Ledger.movedInDays_floor (days : ℕ) (t : ℝ) :
    ledger.movedInDays address days t =
      windowSum Withdrawal.seconds (days • 86_400) Withdrawal.moved ⌊t⌋
        (ledger.withdrawals address) := by
  unfold Ledger.movedInDays windowSum
  congr 2
  apply List.filter_congr
  intro withdrawal _
  rw [decide_eq_decide, Int.floor_lt, Int.le_floor]
  simp only [Withdrawal.instant, Withdrawal.seconds, nsmul_eq_mul]
  push_cast
  rfl

/-- However the days lie, no `k` of them see more than `k + 1` times the cap
leave the vault. -/
theorem movedInDays_le {now : Int64} {tokens : TokenTable}
    (run : Run (Ledger.step solana) (CapAtMost address cap)
      (Ledger.start now tokens) ledger) (days : ℕ) (t : ℝ) :
    ledger.movedInDays address days t ≤ (days + 1) * cap.toNat := by
  obtain ⟨windows, h⟩ := Windowed.of_run run
  rw [Ledger.movedInDays_floor, ← windowSum_perm _ _ _ h.perm,
    ← smul_eq_mul]
  exact h.spaced.windowSum_le (by decide) h.holds h.within ⌊t⌋ days

/-- Two caps leave the vault within two seconds, and no more in that day. -/
theorem movedInDays_attained : ∃ ledger,
    Run (Ledger.step VaultSample.chain)
      (CapAtMost VaultSample.vault VaultSample.perDay)
      (Ledger.start VaultSample.noon VaultSample.tokens) ledger ∧
    ledger.movedInDays VaultSample.vault 1 (1_750_086_400 : ℤ) =
      400_000_000 ∧
    ledger.movedInDays VaultSample.vault 1 (1_750_086_400 : ℤ) ≤
      (1 + 1) * VaultSample.perDay.toNat := by
  have hrun : (exec (Ledger.step VaultSample.chain)
      (fun ledger action =>
        decide (CapAtMost VaultSample.vault VaultSample.perDay ledger action))
      (Ledger.start VaultSample.noon VaultSample.tokens)
      [VaultSample.create, VaultSample.fund,
        .tick (VaultSample.noon + 86_399), VaultSample.withdraw,
        VaultSample.withdraw, .tick (VaultSample.noon + 86_400),
        VaultSample.withdraw, VaultSample.withdraw]).map
      (fun ledger => windowSum Withdrawal.seconds (1 • 86_400)
        Withdrawal.moved 1_750_086_400
        (ledger.withdrawals VaultSample.vault)) = some 400_000_000 := by
    decide
  obtain ⟨ledger, hexec, hmoved⟩ := Option.map_eq_some_iff.mp hrun
  have run := (run_of_exec hexec).mono fun _ _ hok => of_decide_eq_true hok
  refine ⟨ledger, run, ?_, movedInDays_le run 1 _⟩
  rw [Ledger.movedInDays_floor, Int.floor_intCast]
  exact hmoved

end X402Guard
