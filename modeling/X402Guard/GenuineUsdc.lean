/-
The mints of the tokens that the vault program moves.  `guarded_withdraw` checks
the mint it is given; `deposit` and `close_vault` only tie the token accounts to
it.
-/
import X402Guard.TokenCustody

namespace X402Guard

open Interaction TokenAccount

/-- One of the two canonical USDC mints. -/
def IsUsdcMint (mint : Pubkey) : Prop :=
  mint = usdcMintDevnet ∨ mint = usdcMintMainnet

instance (mint : Pubkey) : Decidable (IsUsdcMint mint) :=
  inferInstanceAs (Decidable (_ ∨ _))

theorem isUsdcMint_of_checkUsdcMint {mint : Pubkey}
    (h : checkUsdcMint mint = .ok ()) : IsUsdcMint mint := by
  rw [checkUsdcMint, rejectIf_eq_ok_iff, not_not] at h
  exact h

namespace Ledger

/-- The account that the token transfer of an instruction debits, if the
instruction makes a transfer. -/
def transferSource (ledger : Ledger) : Instruction → Option TokenAccount
  | .deposit accounts _ => ledger.tokens.find? accounts.depositorTokenAccount
  | .guardedWithdraw accounts _ =>
      ledger.tokens.find? accounts.vaultTokenAccount
  | .closeVault accounts =>
      (ledger.tokens.find? accounts.vaultTokenAccount).filter
        fun source => 0 < source.amount
  | .initializeVault .. | .updateRules .. | .revokeAgent .. => none

variable {solana : Solana} {ledger ledger' : Ledger}
variable {signers : List Pubkey} {instruction : Instruction}

/-- An instruction that succeeds has made the transfer from that account. -/
theorem transferred_of_transferSource
    (h : ledger.process solana signers instruction = .ok ledger')
    {source : TokenAccount}
    (hsource : ledger.transferSource instruction = some source) :
    ∃ tokens payee authority amount,
      Transferred ledger.tokens tokens source payee authority amount := by
  have hmove := process_tokenMove h
  generalize ledger'.tokens = after at hmove
  cases hmove with
  | rulesUpdated => cases hsource
  | agentRevoked => cases hsource
  | opened => cases hsource
  | @deposited accounts amount payer payee tokens _ hfrom _ hmoved =>
      rw [transferSource, ← hfrom, hmoved.payer_found] at hsource
      obtain rfl := Option.some.inj hsource
      exact ⟨_, _, _, _, hmoved⟩
  | @withdrew accounts amount vault payer payee tokens _ _ _ hfrom _ _ _
      hmoved =>
      rw [transferSource, ← hfrom, hmoved.payer_found] at hsource
      obtain rfl := Option.some.inj hsource
      exact ⟨_, _, _, _, hmoved⟩
  | @closed accounts vault payer payee _ drained _ _ _ hfrom _ _ hpayer _ _ _
      hdrained _ _ =>
      rw [transferSource, ← hfrom, hpayer, Option.filter_some] at hsource
      rcases hdrained with ⟨hpos, hmoved⟩ | ⟨hzero, _⟩
      · simp only [hpos, decide_true, ↓reduceIte, Option.some.injEq]
          at hsource
        obtain rfl := hsource
        exact ⟨_, _, _, _, hmoved⟩
      · simp [hzero] at hsource

/-- What an account holds changes only if an instruction makes a transfer, and
then the account is of the mint transferred. -/
theorem mint_of_balance_ne
    (h : ledger.process solana signers instruction = .ok ledger')
    {account : TokenAccount}
    (haccount : ledger.tokens.find? account.address = some account)
    (hne : ledger'.balance account.address ≠
      ledger.balance account.address) :
    ∃ source, ledger.transferSource instruction = some source ∧
      source.mint = account.mint := by
  have hmint : ∀ {tokens payer payee authority amount},
      Transferred ledger.tokens tokens payer payee authority amount →
      TokenAccount.balance tokens account.address ≠
        ledger.balance account.address → payer.mint = account.mint := by
    intro tokens payer payee authority amount hmoved hchanged
    by_cases hpayer : account.address = payer.address
    · rw [hpayer, hmoved.payer_found] at haccount
      rw [Option.some.inj haccount]
    · by_cases hpayee : account.address = payee.address
      · rw [hpayee, hmoved.payee_found] at haccount
        rw [hmoved.mint_eq, Option.some.inj haccount]
      · exact absurd (balance_congr (hmoved.find?_of_ne hpayer hpayee))
          hchanged
  have hmove := process_tokenMove h
  unfold balance at hne
  generalize ledger'.tokens = after at hmove hne
  cases hmove with
  | rulesUpdated => exact absurd rfl hne
  | agentRevoked => exact absurd rfl hne
  | opened _ hnew => exact absurd (balance_insert hnew haccount) hne
  | @deposited accounts amount payer payee tokens _ hfrom _ hmoved =>
      refine ⟨payer, ?_, hmint hmoved hne⟩
      rw [transferSource, ← hfrom, hmoved.payer_found]
  | @withdrew accounts amount vault payer payee tokens _ _ _ hfrom _ _ _
      hmoved =>
      refine ⟨payer, ?_, hmint hmoved hne⟩
      rw [transferSource, ← hfrom, hmoved.payer_found]
  | @closed accounts vault payer payee emptied drained _ _ _ hfrom _ _ hpayer
      _ _ _ hdrained hemptied hempty =>
      rw [transferSource, ← hfrom, hpayer, Option.filter_some]
      have hchanged : TokenAccount.balance drained account.address ≠
          ledger.balance account.address := by
        by_cases haddress : account.address = payer.address
        · intro hsame
          apply hne
          rw [haddress] at hsame ⊢
          rw [← balance, ← hsame, balance_eq hemptied, hempty]
          simp [TokenAccount.balance, KeyedTable.find?_erase]
        · rwa [balance_erase haddress] at hne
      rcases hdrained with ⟨hpos, hmoved⟩ | ⟨_, rfl⟩
      · refine ⟨payer, ?_, hmint hmoved hchanged⟩
        simp [hpos]
      · exact absurd rfl hchanged

end Ledger

/-- The transfer that the step makes, if it makes one, is of genuine USDC. -/
def MovesUsdc (step : Taken Ledger LedgerAction) : Prop :=
  ∀ signers instruction source,
    step.action = .transact signers instruction →
    step.before.transferSource instruction = some source →
    IsUsdcMint source.mint

/-- A deposit, and a closing of an account that is not empty, names a canonical
mint. -/
def NamesUsdc (step : Taken Ledger LedgerAction) : Prop :=
  (∀ signers accounts amount,
    step.action = .transact signers (.deposit accounts amount) →
    IsUsdcMint accounts.usdcMint) ∧
  ∀ signers accounts,
    step.action = .transact signers (.closeVault accounts) →
    0 < step.before.balance accounts.vaultTokenAccount →
    IsUsdcMint accounts.usdcMint

namespace Ledger

variable {solana : Solana} {ledger ledger' : Ledger}

theorem movesUsdc_transact_iff {signers : List Pubkey}
    {instruction : Instruction} :
    MovesUsdc ⟨ledger, .transact signers instruction, ledger'⟩ ↔
      ∀ source, ledger.transferSource instruction = some source →
        IsUsdcMint source.mint := by
  constructor
  · intro h source hsource
    exact h signers instruction source rfl hsource
  · intro h _ _ source haction hsource
    cases haction
    exact h source hsource

theorem movesUsdc_iff_of_process {signers : List Pubkey}
    {instruction : Instruction}
    (h : ledger.process solana signers instruction = .ok ledger') :
    MovesUsdc ⟨ledger, .transact signers instruction, ledger'⟩ ↔
      NamesUsdc ⟨ledger, .transact signers instruction, ledger'⟩ := by
  have hmove := process_tokenMove h
  rw [movesUsdc_transact_iff]
  unfold NamesUsdc
  simp only [LedgerAction.transact.injEq]
  generalize ledger'.tokens = after at hmove
  cases hmove with
  | rulesUpdated => simp [transferSource]
  | agentRevoked => simp [transferSource]
  | opened => simp [transferSource]
  | @deposited accounts amount payer payee tokens _ hfrom hmint hmoved =>
      simp [transferSource, ← hfrom, hmoved.payer_found, ← hmint]
  | @withdrew accounts amount vault payer payee tokens _ _ _ hfrom _ hmint
      husdc hmoved =>
      have hgenuine := isUsdcMint_of_checkUsdcMint husdc
      simp [transferSource, ← hfrom, hmoved.payer_found, hmint, hgenuine]
  | @closed accounts vault payer payee emptied drained _ _ _ hfrom _ hmint
      hpayer _ _ _ _ _ _ =>
      rw [transferSource, ← hfrom, hpayer, Option.filter_some]
      constructor
      · intro h
        refine ⟨by simp, ?_⟩
        rintro _ _ ⟨_, haccounts⟩ hpos
        cases haccounts
        rw [← hmint]
        apply h
        rw [← hfrom, balance, balance_pos_iff hpayer] at hpos
        rw [if_pos (decide_eq_true hpos)]
      · rintro ⟨_, hclosed⟩ source hsource
        rw [Option.ite_none_right_eq_some, decide_eq_true_iff] at hsource
        obtain ⟨hpos, hsource⟩ := hsource
        obtain rfl := Option.some.inj hsource
        rw [hmint]
        apply hclosed signers accounts ⟨rfl, rfl⟩
        rw [← hfrom, balance, balance_pos_iff hpayer]
        exact hpos

theorem step_movesUsdc_iff {action : LedgerAction}
    (h : ledger.step solana action = some ledger') :
    MovesUsdc ⟨ledger, action, ledger'⟩ ↔
      NamesUsdc ⟨ledger, action, ledger'⟩ := by
  rcases step_transact h with
    ⟨later, rfl, _, _⟩ | ⟨signers, instruction, rfl, hprocess⟩
  · simp [MovesUsdc, NamesUsdc]
  · exact movesUsdc_iff_of_process hprocess

end Ledger

/-- In every run all transfers are of genuine USDC exactly when the deposits
and closings that move tokens name a canonical mint. -/
theorem transfers_moveUsdc_iff {solana : Solana} {now : Int64}
    {tokens : TokenTable} {steps : List (Taken Ledger LedgerAction)}
    {ledger : Ledger}
    (trail : Trail (Ledger.step solana) (Ledger.start now tokens) steps
      ledger) :
    (∀ step ∈ steps, MovesUsdc step) ↔ ∀ step ∈ steps, NamesUsdc step := by
  have hsteps := trail.forall_taken
    (P := fun step => MovesUsdc step ↔ NamesUsdc step)
    fun _ _ _ htaken => Ledger.step_movesUsdc_iff htaken
  exact forall₂_congr hsteps

/-- The vault holds the devnet mint only. -/
theorem transfers_moveUsdc_sample : ∃ steps ledger,
    Trail (Ledger.step VaultSample.chain)
      (Ledger.start VaultSample.noon VaultSample.tokens) steps ledger ∧
    steps.map Taken.action =
      [VaultSample.create, VaultSample.fund, VaultSample.withdraw] ∧
    ((∀ step ∈ steps, MovesUsdc step) ↔ ∀ step ∈ steps, NamesUsdc step) := by
  have hrun : (execTrail (Ledger.step VaultSample.chain)
      (Ledger.start VaultSample.noon VaultSample.tokens)
      [VaultSample.create, VaultSample.fund,
        VaultSample.withdraw]).isSome = true := by
    decide
  obtain ⟨⟨steps, ledger⟩, hexec⟩ := Option.isSome_iff_exists.mp hrun
  have trail := trail_of_execTrail hexec
  exact ⟨steps, ledger, trail, execTrail_actions hexec,
    transfers_moveUsdc_iff trail⟩

namespace VaultSample

/-- A mint that anyone can make tokens of. -/
def fakeMint : Pubkey := key 8
def fakeToken : Pubkey := key 9
def vaultFakeToken : Pubkey := key 10

def chainOfMints : Solana :=
  { chain with isMint := fun mint => mint = usdcMintDevnet ∨ mint = fakeMint }

theorem fakeToken_new : ¬ tokens.HasKey fakeToken := by
  decide

def fakeTokens : TokenTable :=
  tokens.insert ⟨fakeToken, fakeMint, owner, 5⟩ fakeToken_new

theorem vaultFakeToken_new : ¬ fakeTokens.HasKey vaultFakeToken := by
  decide

/-- An account of the vault for the fake mint. -/
def tokensOfMints : TokenTable :=
  fakeTokens.insert ⟨vaultFakeToken, fakeMint, vault, 0⟩ vaultFakeToken_new

def fundFake : LedgerAction :=
  .transact [owner]
    (.deposit ⟨owner, vault, fakeToken, vaultFakeToken, fakeMint⟩ 5)

end VaultSample

/-- The vault accepts a deposit of a mint that is not USDC. -/
theorem transfers_not_moveUsdc : ¬ ∀ solana now tokens steps ledger,
    Trail (Ledger.step solana) (Ledger.start now tokens) steps ledger →
    ∀ step ∈ steps, MovesUsdc step := by
  intro h
  have hrun : (execTrail (Ledger.step VaultSample.chainOfMints)
      (Ledger.start VaultSample.noon VaultSample.tokensOfMints)
      [VaultSample.create, VaultSample.fundFake]).map
      (fun result => result.1.map fun step =>
        (step.action, step.before.tokens.find? VaultSample.fakeToken)) =
      some [(VaultSample.create, some ⟨VaultSample.fakeToken,
          VaultSample.fakeMint, VaultSample.owner, 5⟩),
        (VaultSample.fundFake, some ⟨VaultSample.fakeToken,
          VaultSample.fakeMint, VaultSample.owner, 5⟩)] := by
    decide
  obtain ⟨⟨steps, ledger⟩, hexec, hseen⟩ := Option.map_eq_some_iff.mp hrun
  have hmem : (VaultSample.fundFake, some ⟨VaultSample.fakeToken,
      VaultSample.fakeMint, VaultSample.owner, 5⟩) ∈
      steps.map fun step =>
        (step.action, step.before.tokens.find? VaultSample.fakeToken) := by
    rw [hseen]
    simp
  obtain ⟨step, hstep, hsame⟩ := List.mem_map.mp hmem
  simp only [Prod.mk.injEq] at hsame
  obtain ⟨haction, hsource⟩ := hsame
  have hgenuine := h _ _ _ _ _ (trail_of_execTrail hexec) step hstep _ _ _
    haction hsource
  exact absurd hgenuine (by decide)

end X402Guard
