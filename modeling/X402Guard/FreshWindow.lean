/-
A fresh window.  A day after the last window of a vault opened, its agent can
withdraw up to the limit of one transaction, whatever the vault has been
through before.
-/
import X402Guard.VaultLayout

namespace X402Guard

open Interaction

namespace VaultState

/-- A withdrawal that shows all this passes the guardrails. -/
theorem Withdraws.guardedWithdraw {vault vault' : VaultState} {agent : Pubkey}
    {now : Int64} {amount : UInt64} {destAuthority destAddress : Pubkey}
    (h : vault.Withdraws agent now amount destAuthority destAddress vault') :
    vault.guardedWithdraw agent now amount destAuthority destAddress =
      .ok vault' := by
  obtain ⟨base, total, hbase, rfl, htotal, hcap⟩ := h.window
  obtain ⟨_, hwindow⟩ := resetWindow_eq_ok_iff.mp hbase
  simp only [VaultState.guardedWithdraw, except_bind_eq_ok,
    rejectIf_eq_ok_iff, okOr_eq_ok_iff, exists_and_left, exists_const,
    not_not]
  refine ⟨h.active, h.agent_eq, ?_, h.amount_pos, h.perTx, base, hbase, total,
    checkedAdd_eq_some_iff.mpr htotal, ?_, ?_, rfl⟩
  · rintro ⟨hexpires, hlate⟩
    exact hlate (h.notExpired hexpires)
  · rw [hwindow, windowAt_maxSpendPerDay]
    exact hcap
  · rw [hwindow, windowAt_allowedPrograms]
    rintro ⟨hsome, hunlisted⟩
    exact hunlisted (h.listed.resolve_left hsome)

/-- In a fresh window the limit of one transaction is all that counts. -/
theorem withdraws_of_day_passed {vault : VaultState} {agent : Pubkey}
    {now : Int64} {amount : UInt64} {destAuthority destAddress : Pubkey}
    (hvault : vault.WellFormed) (hfits : vault.AgeFits now)
    (hday : vault.dayWindowStart.toInt + 86_400 ≤ now.toInt)
    (hactive : vault.isActive = true) (hagent : agent = vault.agent)
    (hexpiry : 0 < vault.agentExpiresAt → now < vault.agentExpiresAt)
    (hpos : 0 < amount) (hperTx : amount ≤ vault.maxSpendPerTx)
    (hlisted : vault.allowedPrograms = [] ∨
      destAuthority ∈ vault.allowedPrograms ∨
      destAddress ∈ vault.allowedPrograms) :
    vault.Withdraws agent now amount destAuthority destAddress
      { vault with spentToday := amount, dayWindowStart := now } where
  active := hactive
  agent_eq := hagent
  notExpired := hexpiry
  amount_pos := hpos
  perTx := hperTx
  listed := hlisted
  window := by
    have hreset : vault.windowAt now =
        { vault with spentToday := 0, dayWindowStart := now } := by
      rw [windowAt, if_pos (by omega)]
    refine ⟨_, amount, resetWindow_eq_ok_iff.mpr ⟨hfits, rfl⟩, ?_, ?_, ?_⟩
    · rw [hreset]
    · rw [hreset]
      exact (Nat.zero_add _).symm
    · exact UInt64.le_trans hperTx hvault.perTx_le

end VaultState

/-- What Solana promises: the bump that is found makes the address that is
found. -/
def Solana.FindsAddresses (solana : Solana) : Prop :=
  ∀ owner, solana.createVaultAddress owner
    (solana.findVaultAddress owner).2 = some (solana.findVaultAddress owner).1

section History

variable {solana : Solana} {now : Int64} {tokens : TokenTable}
variable {ledger ledger' : Ledger} {address : Pubkey}
variable {steps : List (Taken Ledger LedgerAction)}

/-- An instruction keeps a window that opened no earlier than `start`, or opens
one now. -/
theorem VaultChange.start_le {start : ℤ} {signers : List Pubkey}
    {instruction : Instruction} {before after : Option VaultState}
    {moved : List Withdrawal}
    (hchange : VaultChange now signers address instruction before after moved)
    (hnow : start ≤ now.toInt)
    (hbefore : ∀ vault ∈ before, start ≤ vault.dayWindowStart.toInt) :
    ∀ vault ∈ after, start ≤ vault.dayWindowStart.toInt := by
  cases hchange with
  | untouched => exact hbefore
  | initialized _ _ hvault =>
      rintro _ ⟨⟩
      obtain ⟨_, _, _, _, _, rfl⟩ :=
        VaultState.initializeVault_eq_ok_iff.mp hvault
      exact hnow
  | @withdrew _ _ _ _ vault _ _ _ hvault =>
      rintro _ ⟨⟩
      obtain ⟨_, _, hbase, rfl, _⟩ :=
        (VaultState.guardedWithdraw_eq_ok hvault).window
      rcases VaultState.resetWindow_eq_ok hbase with ⟨_, rfl⟩ | ⟨_, hsame⟩
      · exact hnow
      · rw [hsame]
        exact hbefore vault rfl
  | @rulesUpdated _ _ vault _ _ _ hvault =>
      rintro _ ⟨⟩
      obtain rfl := VaultState.updateRules_eq hvault
      exact hbefore vault rfl
  | @agentRevoked _ vault =>
      rintro _ ⟨⟩
      exact hbefore vault rfl
  | closed => rintro _ ⟨⟩

/-- No window opened before the run began. -/
theorem start_le_window_of_trail
    (trail : Trail (Ledger.step solana) (Ledger.start now tokens) steps
      ledger) :
    ∀ vault ∈ ledger.vault? address,
      now.toInt ≤ vault.dayWindowStart.toInt := by
  refine Ledger.vault_of_trail (P := fun _ vault? => ∀ vault ∈ vault?,
    now.toInt ≤ vault.dayWindowStart.toInt) trail ?_ ?_ ?_
  · rintro _ ⟨⟩
  · intro _ _ _ _ _ hstart
    exact hstart
  · intro _ _ _ _ _ _ hnow hstart hchange
    exact hchange.start_le hnow hstart

/-- A vault is created under the address and with the bump of its owner. -/
theorem Ledger.initializeVault_found {signers : List Pubkey}
    {accounts : InitializeVault} {params : InitializeVaultParams}
    {vault : VaultState}
    (h : ledger.initializeVault solana signers accounts params = .ok ledger')
    (hvault : ledger'.vault? accounts.vault = some vault) :
    solana.findVaultAddress vault.owner = (accounts.vault, vault.bump) := by
  simp only [initializeVault, guarded, requireSigner, except_bind_eq_ok,
    rejectIf_eq_ok_iff, mapError_eq_ok_iff, not_not, exists_const] at h
  obtain ⟨_, haddress, _, _, _, _, _, state, hstate, h⟩ := h
  split at h
  · split at h
    · cases h
      simp only [vault?, KeyedTable.find?_insert, ↓reduceIte,
        Option.map_some, Option.some.injEq] at hvault
      obtain ⟨_, _, _, _, _, rfl⟩ :=
        VaultState.initializeVault_eq_ok_iff.mp hstate
      rw [← hvault, haddress]
    · cases h
  · cases h

/-- A vault lies where its owner's vault is found, with the bump found. -/
theorem found_of_trail
    (trail : Trail (Ledger.step solana) (Ledger.start now tokens) steps
      ledger) {vault : VaultState}
    (hvault : ledger.vault? address = some vault) :
    solana.findVaultAddress vault.owner = (address, vault.bump) := by
  obtain ⟨_, earlier, step, later, hsteps, hinitialized, _⟩ :=
    wellKept_of_trail trail vault hvault
  obtain ⟨signers, accounts, params, first, haction, haddress, _, hafter,
    howner, hbump⟩ := hinitialized
  have htaken := trail.forall_taken
    (P := fun step => step.before.step solana step.action = some step.after)
    (fun _ _ _ htaken => htaken) step (by simp [hsteps])
  rw [haction] at htaken
  have hfound := Ledger.initializeVault_found (Ledger.process_of_step htaken)
    (haddress ▸ hafter)
  rw [howner, hbump, hfound, haddress]

/-- The seeds of a vault make its address, as they did when it was
initialized. -/
theorem seeds_of_trail (hfinds : solana.FindsAddresses)
    (trail : Trail (Ledger.step solana) (Ledger.start now tokens) steps
      ledger) {vault : VaultState}
    (hvault : ledger.vault? address = some vault) :
    solana.createVaultAddress vault.owner vault.bump = some address := by
  have hcreated := hfinds vault.owner
  rwa [found_of_trail trail hvault] at hcreated

end History

/-- What SPL Token promises: the supply of a mint is a `u64`. -/
def SupplyFits (tokens : TokenTable) : Prop :=
  ∀ mint, TokenAccount.totalOf tokens (fun other _ => decide (other = mint)) <
    2 ^ 64

namespace TokenAccount

theorem held_of_mint (account : TokenAccount) :
    held (fun other _ => decide (other = account.mint)) account =
      account.amount.toNat := by
  simp [held]

/-- An account holds no more than the supply of its mint. -/
theorem amount_le_totalOf {tokens : TokenTable} {account : TokenAccount}
    (h : tokens.find? account.address = some account) :
    account.amount.toNat ≤
      totalOf tokens fun other _ => decide (other = account.mint) := by
  rw [← held_of_mint account]
  apply List.single_le_sum
  · intro quantity _
    exact Nat.zero_le quantity
  · exact List.mem_map_of_mem (KeyedTable.find?_eq_some_iff.mp h).1

/-- Two accounts of one mint hold no more than its supply together. -/
theorem amounts_le_totalOf {tokens : TokenTable} {payer payee : TokenAccount}
    (hpayer : tokens.find? payer.address = some payer)
    (hpayee : tokens.find? payee.address = some payee)
    (hne : payer.address ≠ payee.address) (hmint : payer.mint = payee.mint) :
    payer.amount.toNat + payee.amount.toNat ≤
      totalOf tokens fun other _ => decide (other = payer.mint) := by
  -- without the payer's tokens the payee's are still there
  have hdrained := KeyedTable.sumOf_replace
    (held fun other _ => decide (other = payer.mint))
    { payer with amount := 0 } hpayer
  have hstill : (tokens.replace { payer with amount := 0 }).find?
      payee.address = some payee := by
    rw [KeyedTable.find?_replace, if_neg hne, hpayee]
  have hle := amount_le_totalOf hstill
  rw [held_of_mint] at hdrained
  have hnothing : held (fun other _ => decide (other = payer.mint))
      { payer with amount := 0 } = 0 := by
    simp [held]
  rw [← hmint] at hle
  unfold totalOf at hle ⊢
  omega

/-- A covered transfer between accounts of one mint goes through. -/
theorem transfer_succeeds {tokens : TokenTable} {payer payee : TokenAccount}
    {amount : UInt64} (hsupply : SupplyFits tokens)
    (hpayer : tokens.find? payer.address = some payer)
    (hpayee : tokens.find? payee.address = some payee)
    (hmint : payer.mint = payee.mint) (hcovered : amount ≤ payer.amount) :
    ∃ tokens', transfer tokens payer.address payee.address payer.owner
      amount = .ok tokens' := by
  simp only [transfer, except_bind_eq_ok, okOr_eq_ok_iff, rejectIf_eq_ok_iff,
    not_not, exists_const, hpayer, hpayee, Option.some.injEq,
    exists_eq_left', true_and]
  by_cases hself : payer.address = payee.address
  · exact ⟨tokens, UInt64.not_lt.mpr hcovered, hmint, if_pos hself⟩
  · have hle := amounts_le_totalOf hpayer hpayee hself hmint
    have hlt := hsupply payer.mint
    have hcovered' := UInt64.le_iff_toNat_le.mp hcovered
    have hadd : checkedAdd payee.amount amount =
        some (payee.amount + amount) := if_pos (by omega)
    simp only [if_neg hself, hadd, okOr]
    exact ⟨_, UInt64.not_lt.mpr hcovered, hmint, rfl⟩

end TokenAccount

/-- A withdrawal by the agent of an active vault, a day or more after its last
window opened, within the limit of one transaction and the vault's balance, to
a destination that the whitelist allows. -/
structure Ledger.MayWithdraw (solana : Solana) (ledger : Ledger)
    (signers : List Pubkey) (accounts : GuardedWithdraw) (amount : UInt64)
    (vault : VaultState) (payer payee : TokenAccount) : Prop where
  vault_found : ledger.vault? accounts.vault = some vault
  active : vault.isActive = true
  signed : accounts.agent ∈ signers
  agent_eq : accounts.agent = vault.agent
  agent_ne : vault.agent ≠ .zero
  unexpired : 0 < vault.agentExpiresAt → ledger.now < vault.agentExpiresAt
  day_passed : vault.dayWindowStart.toInt + 86_400 ≤ ledger.now.toInt
  amount_pos : 0 < amount
  perTx : amount ≤ vault.maxSpendPerTx
  canonical : accounts.usdcMint = usdcMintDevnet ∨
    accounts.usdcMint = usdcMintMainnet
  mint_found : solana.isMint accounts.usdcMint = true
  payer_found : ledger.tokens.find? accounts.vaultTokenAccount = some payer
  payer_mint : payer.mint = accounts.usdcMint
  payer_owner : payer.owner = accounts.vault
  covered : amount ≤ payer.amount
  payee_found : ledger.tokens.find? accounts.destinationTokenAccount =
    some payee
  payee_mint : payee.mint = accounts.usdcMint
  listed : vault.allowedPrograms = [] ∨
    payee.owner ∈ vault.allowedPrograms ∨
    payee.address ∈ vault.allowedPrograms

section Loading

variable {solana : Solana} {ledger : Ledger} {address mint : Pubkey}

theorem Ledger.loadVault_of_seeds {vault : VaultState}
    (hvault : ledger.vault? address = some vault)
    (hseeds : solana.createVaultAddress vault.owner vault.bump =
      some address) : ledger.loadVault solana address = .ok vault := by
  obtain ⟨account, haccount, rfl⟩ := Option.map_eq_some_iff.mp hvault
  simp only [loadVault, except_bind_eq_ok, okOr_eq_ok_iff,
    rejectIf_eq_ok_iff, not_not, exists_const]
  exact ⟨account, haccount, hseeds, rfl⟩

theorem Ledger.loadToken_of_find? {account : TokenAccount}
    (hfound : ledger.tokens.find? address = some account)
    (hmint : account.mint = mint) :
    ledger.loadToken address mint = .ok account := by
  simp only [loadToken, except_bind_eq_ok, okOr_eq_ok_iff,
    rejectIf_eq_ok_iff, not_not, exists_const]
  exact ⟨account, hfound, hmint, rfl⟩

theorem Ledger.loadTokenOf_of_find? {account : TokenAccount} {owner : Pubkey}
    (hfound : ledger.tokens.find? address = some account)
    (hmint : account.mint = mint) (howner : account.owner = owner) :
    ledger.loadTokenOf address mint owner = .ok account := by
  simp only [loadTokenOf, except_bind_eq_ok, rejectIf_eq_ok_iff, not_not,
    exists_const]
  exact ⟨account, loadToken_of_find? hfound hmint, howner, rfl⟩

end Loading

section Fresh

variable {solana : Solana} {now : Int64} {tokens : TokenTable}
variable {ledger : Ledger} {steps : List (Taken Ledger LedgerAction)}
variable {signers : List Pubkey} {accounts : GuardedWithdraw}
variable {amount : UInt64} {vault : VaultState} {payer payee : TokenAccount}

theorem Ledger.MayWithdraw.guardrails
    (h : ledger.MayWithdraw solana signers accounts amount vault payer payee)
    (trail : Trail (Ledger.step solana) (Ledger.start now tokens) steps
      ledger) (hclock : 0 ≤ now) :
    vault.guardedWithdraw accounts.agent ledger.now amount payee.owner
      payee.address = .ok { vault with
        spentToday := amount
        dayWindowStart := ledger.now } := by
  obtain ⟨hformed, _⟩ := wellKept_of_trail trail vault h.vault_found
  have hopened := start_le_window_of_trail trail vault h.vault_found
  have hday := h.day_passed
  have hstart : 0 ≤ now.toInt := Int64.le_iff_toInt_le.mp hclock
  have hnow := ledger.now.toInt_lt
  have hfits : vault.AgeFits ledger.now := ⟨by omega, by omega⟩
  exact (VaultState.withdraws_of_day_passed hformed hfits hday h.active
    h.agent_eq h.unexpired h.amount_pos h.perTx h.listed).guardedWithdraw

theorem Ledger.MayWithdraw.transfer
    (h : ledger.MayWithdraw solana signers accounts amount vault payer payee)
    (hsupply : SupplyFits ledger.tokens) :
    ∃ moved, TokenAccount.transfer ledger.tokens accounts.vaultTokenAccount
      accounts.destinationTokenAccount accounts.vault amount = .ok moved := by
  have hpayer := (KeyedTable.find?_eq_some_iff.mp h.payer_found).2
  have hpayee := (KeyedTable.find?_eq_some_iff.mp h.payee_found).2
  have hmoved := TokenAccount.transfer_succeeds hsupply
    (hpayer ▸ h.payer_found) (hpayee ▸ h.payee_found)
    (h.payer_mint.trans h.payee_mint.symm) h.covered
  rwa [hpayer, hpayee, h.payer_owner] at hmoved

/-- In every run of non-negative clock values such a withdrawal succeeds: it is
all that the new window has seen, and changes nothing else of the vault. -/
theorem guardedWithdraw_in_fresh_window
    (trail : Trail (Ledger.step solana) (Ledger.start now tokens) steps
      ledger) (hclock : 0 ≤ now) (hfinds : solana.FindsAddresses)
    (hsupply : SupplyFits ledger.tokens)
    (h : ledger.MayWithdraw solana signers accounts amount vault payer
      payee) :
    ∃ ledger', ledger.process solana signers
        (.guardedWithdraw accounts amount) = .ok ledger' ∧
      ledger'.vault? accounts.vault = some { vault with
        spentToday := amount
        dayWindowStart := ledger.now } := by
  have hvault := Ledger.loadVault_of_seeds h.vault_found
    (seeds_of_trail hfinds trail h.vault_found)
  have hfrom := Ledger.loadTokenOf_of_find? h.payer_found h.payer_mint
    h.payer_owner
  have hto := Ledger.loadToken_of_find? h.payee_found h.payee_mint
  have hmint : ¬ solana.isMint accounts.usdcMint = false := by
    simp [h.mint_found]
  have hstate := h.guardrails trail hclock
  obtain ⟨moved, hmoved⟩ := h.transfer hsupply
  obtain ⟨account, haccount, _⟩ := Option.map_eq_some_iff.mp h.vault_found
  simp only [Ledger.process, Ledger.guardedWithdraw, requireSigner,
    Ledger.loadMint, guarded, checkUsdcMint, except_bind_eq_ok,
    rejectIf_eq_ok_iff, mapError_eq_ok_iff, not_not, exists_const]
  refine ⟨_, ⟨h.signed, vault, hvault, payer, hfrom, payee, hto, hmint,
    h.canonical, _, hstate, moved, hmoved, rfl⟩, ?_⟩
  simp [Ledger.vault?, KeyedTable.find?_replace, haccount]

end Fresh

/-- Few tokens altogether are a small supply of every mint. -/
theorem supplyFits_of_sumOf {tokens : TokenTable}
    (h : tokens.sumOf (fun account => account.amount.toNat) < 2 ^ 64) :
    SupplyFits tokens := by
  intro mint
  refine Nat.lt_of_le_of_lt (List.sum_le_sum fun account _ => ?_) h
  unfold TokenAccount.held
  split
  · exact Nat.le_refl _
  · exact Nat.zero_le _

namespace VaultSample

/-- A chain on which every owner's seeds make the vault's address. -/
def seedChain : Solana :=
  { chain with
    createVaultAddress := fun _ bump =>
      if bump = 255 then some vault else none }

def nextDay : LedgerAction := .tick (noon + 86_400)

/-- The daily limit is used up, and a day goes by. -/
def spentDay : List LedgerAction :=
  [create, fund, withdraw, withdraw, nextDay]

def spentVault : VaultState where
  owner := owner
  agent := agent
  maxSpendPerTx := perTx
  maxSpendPerDay := perDay
  spentToday := perDay
  dayWindowStart := noon
  agentExpiresAt := 0
  allowedPrograms := []
  isActive := true
  bump := 255
  reserved := .replicate 64 0

def fundedToken : TokenAccount :=
  ⟨vaultToken, usdcMintDevnet, vault, 800_000_000⟩

def paidToken : TokenAccount :=
  ⟨shopToken, usdcMintDevnet, key 7, 200_000_000⟩

/-- What a withdrawal after the day depends on. -/
theorem spentDay_run :
    (execTrail (Ledger.step seedChain) (Ledger.start noon tokens)
        spentDay).map (fun (_, ledger) =>
      (ledger.vault? vault, ledger.now, ledger.tokens.find? vaultToken,
        ledger.tokens.find? shopToken, decide (ledger.tokens.sumOf
          (fun account => account.amount.toNat) < 2 ^ 64))) =
      some (some spentVault, noon + 86_400, some fundedToken, some paidToken,
        true) := by
  decide

def toShop : GuardedWithdraw :=
  ⟨agent, vault, vaultToken, shopToken, usdcMintDevnet⟩

theorem spentDay_mayWithdraw {ledger : Ledger}
    (hvault : ledger.vault? vault = some spentVault)
    (hnow : ledger.now = noon + 86_400)
    (hpayer : ledger.tokens.find? vaultToken = some fundedToken)
    (hpayee : ledger.tokens.find? shopToken = some paidToken) :
    ledger.MayWithdraw seedChain [agent] toShop perTx spentVault fundedToken
      paidToken where
  vault_found := hvault
  active := rfl
  signed := List.mem_singleton_self _
  agent_eq := rfl
  agent_ne := by decide
  unexpired hexpires := absurd hexpires (by decide)
  day_passed := by
    rw [hnow]
    decide
  amount_pos := by decide
  perTx := by decide
  canonical := Or.inl rfl
  mint_found := by decide
  payer_found := hpayer
  payer_mint := rfl
  payer_owner := rfl
  covered := by decide
  payee_found := hpayee
  payee_mint := rfl
  listed := Or.inl rfl

end VaultSample

/-- The daily limit has been spent, and the next day the agent withdraws
again. -/
theorem guardedWithdraw_in_fresh_window_sample :
    ∃ steps ledger ledger',
      Trail (Ledger.step VaultSample.seedChain)
        (Ledger.start VaultSample.noon VaultSample.tokens) steps ledger ∧
      steps.map Taken.action = VaultSample.spentDay ∧
      ledger.vault? VaultSample.vault = some VaultSample.spentVault ∧
      ledger.process VaultSample.seedChain [VaultSample.agent]
        (.guardedWithdraw VaultSample.toShop VaultSample.perTx) =
          .ok ledger' ∧
      ledger'.vault? VaultSample.vault = some { VaultSample.spentVault with
        spentToday := VaultSample.perTx
        dayWindowStart := ledger.now } := by
  obtain ⟨⟨steps, ledger⟩, hexec, hseen⟩ :=
    Option.map_eq_some_iff.mp VaultSample.spentDay_run
  simp only [Prod.mk.injEq, decide_eq_true_eq] at hseen
  obtain ⟨hvault, hnow, hpayer, hpayee, hfew⟩ := hseen
  have trail := trail_of_execTrail hexec
  obtain ⟨ledger', hprocess, hafter⟩ := guardedWithdraw_in_fresh_window trail
    (by decide) (fun _ => rfl) (supplyFits_of_sumOf hfew)
    (VaultSample.spentDay_mayWithdraw hvault hnow hpayer hpayee)
  exact ⟨steps, ledger, ledger', trail, execTrail_actions hexec, hvault,
    hprocess, hafter⟩

end X402Guard
