/-
Who can move the tokens of a vault.  What an instruction does to the token
accounts is said once; from it: tokens leave a vault only through its agent's
withdrawals and its owner's closing, the state of a vault changes only by their
instructions, and no instruction makes or destroys tokens.
-/
import Mathlib.Data.Nat.Basic
import X402Guard.VaultChanges

namespace X402Guard

open Interaction

abbrev TokenTable := KeyedTable TokenAccount TokenAccount.address

namespace TokenAccount

/-- What an account holds, if its mint and authority are counted. -/
def held (p : Pubkey → Pubkey → Bool) (account : TokenAccount) : ℕ :=
  if p account.mint account.owner then account.amount.toNat else 0

/-- What the accounts that are counted hold together. -/
def totalOf (tokens : TokenTable) (p : Pubkey → Pubkey → Bool) : ℕ :=
  tokens.sumOf (held p)

/-- What the account at an address holds; nothing if there is none. -/
def balance (tokens : TokenTable) (address : Pubkey) : ℕ :=
  ((tokens.find? address).map fun account => account.amount.toNat).getD 0

theorem balance_eq {tokens : TokenTable} {address : Pubkey}
    {account : TokenAccount} (h : tokens.find? address = some account) :
    balance tokens address = account.amount.toNat := by
  simp [balance, h]

theorem balance_pos_iff {tokens : TokenTable} {address : Pubkey}
    {account : TokenAccount} (h : tokens.find? address = some account) :
    0 < balance tokens address ↔ 0 < account.amount := by
  rw [balance_eq h, UInt64.lt_iff_toNat_lt]
  rfl

theorem balance_congr {tokens tokens' : TokenTable} {address : Pubkey}
    (h : tokens'.find? address = tokens.find? address) :
    balance tokens' address = balance tokens address := by
  simp [balance, h]

/-- A transfer went through: from which account to which, for whom, and how
much. -/
structure Transferred (tokens tokens' : TokenTable)
    (payer payee : TokenAccount) (authority : Pubkey) (amount : UInt64) :
    Prop where
  payer_found : tokens.find? payer.address = some payer
  payee_found : tokens.find? payee.address = some payee
  covered : amount ≤ payer.amount
  mint_eq : payer.mint = payee.mint
  authorized : payer.owner = authority
  result : (payer.address = payee.address ∧ tokens' = tokens) ∨
    (payer.address ≠ payee.address ∧ ∃ received : UInt64,
      received.toNat = payee.amount.toNat + amount.toNat ∧
      tokens' = (tokens.replace
        { payer with amount := payer.amount - amount }).replace
        { payee with amount := received })

theorem transfer_eq_ok {tokens tokens' : TokenTable}
    {source destination authority : Pubkey} {amount : UInt64}
    (h : transfer tokens source destination authority amount = .ok tokens') :
    ∃ payer payee, payer.address = source ∧ payee.address = destination ∧
      Transferred tokens tokens' payer payee authority amount := by
  simp only [transfer, except_bind_eq_ok, okOr_eq_ok_iff, rejectIf_eq_ok_iff,
    not_not, exists_const] at h
  obtain ⟨payer, hpayer, payee, hpayee, hcovered, hmint, howner, h⟩ := h
  obtain rfl := (KeyedTable.find?_eq_some_iff.mp hpayer).2
  obtain rfl := (KeyedTable.find?_eq_some_iff.mp hpayee).2
  refine ⟨payer, payee, rfl, rfl, hpayer, hpayee, ?_, hmint, howner, ?_⟩
  · exact UInt64.not_lt.mp hcovered
  · split at h
    · rename_i hself
      cases h
      exact Or.inl ⟨hself, rfl⟩
    · rename_i hne
      simp only [except_bind_eq_ok, okOr_eq_ok_iff] at h
      obtain ⟨received, hreceived, h⟩ := h
      cases h
      exact Or.inr ⟨hne, received, checkedAdd_toNat hreceived, rfl⟩

namespace Transferred

variable {tokens tokens' : TokenTable} {payer payee : TokenAccount}
variable {authority : Pubkey} {amount : UInt64}

theorem sub_toNat (h : Transferred tokens tokens' payer payee authority
    amount) : (payer.amount - amount).toNat + amount.toNat =
      payer.amount.toNat := by
  have hle := UInt64.le_iff_toNat_le.mp h.covered
  rw [UInt64.toNat_sub_of_le _ _ h.covered]
  omega

theorem find?_of_ne (h : Transferred tokens tokens' payer payee authority
    amount) {address : Pubkey} (hpayer : address ≠ payer.address)
    (hpayee : address ≠ payee.address) :
    tokens'.find? address = tokens.find? address := by
  rcases h.result with ⟨_, rfl⟩ | ⟨_, received, _, rfl⟩
  · rfl
  · rw [KeyedTable.find?_replace, if_neg (Ne.symm hpayee),
      KeyedTable.find?_replace, if_neg (Ne.symm hpayer)]

theorem find?_payer (h : Transferred tokens tokens' payer payee authority
    amount) (hne : payer.address ≠ payee.address) :
    tokens'.find? payer.address =
      some { payer with amount := payer.amount - amount } := by
  rcases h.result with ⟨heq, _⟩ | ⟨_, received, _, rfl⟩
  · exact absurd heq hne
  · rw [KeyedTable.find?_replace, if_neg (Ne.symm hne),
      KeyedTable.find?_replace, if_pos rfl, h.payer_found]
    rfl

theorem find?_payee (h : Transferred tokens tokens' payer payee authority
    amount) (hne : payer.address ≠ payee.address) :
    ∃ received : UInt64, received.toNat = payee.amount.toNat + amount.toNat ∧
      tokens'.find? payee.address =
        some { payee with amount := received } := by
  rcases h.result with ⟨heq, _⟩ | ⟨_, received, hreceived, rfl⟩
  · exact absurd heq hne
  · refine ⟨received, hreceived, ?_⟩
    rw [KeyedTable.find?_replace, if_pos rfl, KeyedTable.find?_replace,
      if_neg hne, h.payee_found]
    rfl

/-- Only the payer of a transfer loses anything. -/
theorem balance_le (h : Transferred tokens tokens' payer payee authority
    amount) {address : Pubkey}
    (hlost : balance tokens' address < balance tokens address) :
    address = payer.address ∧ payer.address ≠ payee.address := by
  rcases h.result with ⟨_, rfl⟩ | ⟨hne, _⟩
  · exact absurd hlost (lt_irrefl _)
  · refine ⟨?_, hne⟩
    by_contra hpayer
    by_cases hpayee : address = payee.address
    · obtain ⟨received, hreceived, hfound⟩ := h.find?_payee hne
      rw [hpayee, balance_eq hfound, balance_eq h.payee_found] at hlost
      simp only [hreceived] at hlost
      omega
    · rw [balance_congr (h.find?_of_ne hpayer hpayee)] at hlost
      exact lt_irrefl _ hlost

theorem balance_payer (h : Transferred tokens tokens' payer payee authority
    amount) (hne : payer.address ≠ payee.address) :
    balance tokens' payer.address + amount.toNat =
      balance tokens payer.address := by
  rw [balance_eq (h.find?_payer hne), balance_eq h.payer_found]
  exact h.sub_toNat

theorem balance_payee (h : Transferred tokens tokens' payer payee authority
    amount) (hne : payer.address ≠ payee.address) :
    balance tokens' payee.address =
      balance tokens payee.address + amount.toNat := by
  obtain ⟨received, hreceived, hfound⟩ := h.find?_payee hne
  rw [balance_eq hfound, balance_eq h.payee_found]
  exact hreceived

/-- What the transfer moves out of the accounts counted and into them. -/
theorem totalOf (h : Transferred tokens tokens' payer payee authority amount)
    (p : Pubkey → Pubkey → Bool) :
    totalOf tokens' p + (if p payer.mint payer.owner then amount.toNat else 0) =
      totalOf tokens p +
        (if p payee.mint payee.owner then amount.toNat else 0) := by
  rcases h.result with ⟨hself, rfl⟩ | ⟨hne, received, hreceived, rfl⟩
  · have hsame : payer = payee := by
      have hfound := h.payer_found
      rw [hself, h.payee_found] at hfound
      exact (Option.some.inj hfound).symm
    rw [hsame]
  · have hpayer := KeyedTable.sumOf_replace (held p)
      { payer with amount := payer.amount - amount } h.payer_found
    have hstill : (tokens.replace
        { payer with amount := payer.amount - amount }).find? payee.address =
          some payee := by
      rw [KeyedTable.find?_replace, if_neg hne, h.payee_found]
    have hpayee := KeyedTable.sumOf_replace (held p)
      { payee with amount := received } hstill
    have hsub := h.sub_toNat
    simp only [held, hreceived] at hpayer hpayee
    unfold TokenAccount.totalOf
    split_ifs at hpayer hpayee ⊢ <;> omega

end Transferred

theorem closeAccount_eq_ok {tokens tokens' : TokenTable}
    {account authority : Pubkey}
    (h : closeAccount tokens account authority = .ok tokens') :
    ∃ closed, tokens.find? account = some closed ∧ closed.amount = 0 ∧
      closed.owner = authority ∧ tokens' = tokens.erase account := by
  simp only [closeAccount, except_bind_eq_ok, okOr_eq_ok_iff,
    rejectIf_eq_ok_iff, not_not, exists_const] at h
  obtain ⟨closed, hclosed, hempty, howner, h⟩ := h
  cases h
  exact ⟨closed, hclosed, hempty, howner, rfl⟩

end TokenAccount

open TokenAccount

/-- `TokenMove ledger signers instruction tokens`: the instruction can leave
the token accounts as `tokens`. -/
inductive TokenMove (ledger : Ledger) (signers : List Pubkey) :
    Instruction → TokenTable → Prop
  | rulesUpdated {accounts : UpdateRules} {params : UpdateRulesParams} :
      TokenMove ledger signers (.updateRules accounts params) ledger.tokens
  | agentRevoked {accounts : RevokeAgent} :
      TokenMove ledger signers (.revokeAgent accounts) ledger.tokens
  | opened {accounts : InitializeVault} {params : InitializeVaultParams}
      {account : TokenAccount} (hempty : account.amount = 0)
      (hnew : ¬ ledger.tokens.HasKey account.address) :
      TokenMove ledger signers (.initializeVault accounts params)
        (ledger.tokens.insert account hnew)
  | deposited {accounts : Deposit} {amount : UInt64}
      {payer payee : TokenAccount} {tokens : TokenTable}
      (hsigned : accounts.depositor ∈ signers)
      (hfrom : payer.address = accounts.depositorTokenAccount)
      (hmint : payer.mint = accounts.usdcMint)
      (hmoved : Transferred ledger.tokens tokens payer payee
        accounts.depositor amount) :
      TokenMove ledger signers (.deposit accounts amount) tokens
  | withdrew {accounts : GuardedWithdraw} {amount : UInt64}
      {vault : VaultState} {payer payee : TokenAccount} {tokens : TokenTable}
      (hsigned : accounts.agent ∈ signers)
      (hvault : ledger.vault? accounts.vault = some vault)
      (hagent : accounts.agent = vault.agent)
      (hfrom : payer.address = accounts.vaultTokenAccount)
      (hto : payee.address = accounts.destinationTokenAccount)
      (hmint : payer.mint = accounts.usdcMint)
      (husdc : checkUsdcMint accounts.usdcMint = .ok ())
      (hmoved : Transferred ledger.tokens tokens payer payee accounts.vault
        amount) :
      TokenMove ledger signers (.guardedWithdraw accounts amount) tokens
  | closed {accounts : CloseVault} {vault : VaultState}
      {payer payee emptied : TokenAccount} {drained : TokenTable}
      (hsigned : accounts.owner ∈ signers)
      (hvault : ledger.vault? accounts.vault = some vault)
      (howner : vault.owner = accounts.owner)
      (hfrom : payer.address = accounts.vaultTokenAccount)
      (hto : payee.address = accounts.ownerTokenAccount)
      (hmint : payer.mint = accounts.usdcMint)
      (hpayer : ledger.tokens.find? payer.address = some payer)
      (hpayee : ledger.tokens.find? payee.address = some payee)
      (hauthority : payer.owner = accounts.vault)
      (hreceiver : payee.owner = accounts.owner)
      (hdrained : (0 < payer.amount ∧ Transferred ledger.tokens drained payer
          payee accounts.vault payer.amount) ∨
        (payer.amount = 0 ∧ drained = ledger.tokens))
      (hemptied : drained.find? payer.address = some emptied)
      (hempty : emptied.amount = 0) :
      TokenMove ledger signers (.closeVault accounts)
        (drained.erase payer.address)

namespace Ledger

variable {solana : Solana} {ledger ledger' : Ledger}

theorem loadToken_eq_ok {address mint : Pubkey} {account : TokenAccount}
    (h : ledger.loadToken address mint = .ok account) :
    account.address = address ∧ account.mint = mint ∧
      ledger.tokens.find? account.address = some account := by
  simp only [loadToken, except_bind_eq_ok, okOr_eq_ok_iff,
    rejectIf_eq_ok_iff, not_not, exists_const] at h
  obtain ⟨found, hfound, hmint, h⟩ := h
  cases h
  obtain rfl := (KeyedTable.find?_eq_some_iff.mp hfound).2
  exact ⟨rfl, hmint, hfound⟩

theorem loadTokenOf_eq_ok {address mint owner : Pubkey}
    {account : TokenAccount}
    (h : ledger.loadTokenOf address mint owner = .ok account) :
    account.address = address ∧ account.mint = mint ∧
      account.owner = owner ∧
      ledger.tokens.find? account.address = some account := by
  simp only [loadTokenOf, except_bind_eq_ok, rejectIf_eq_ok_iff, not_not,
    exists_const] at h
  obtain ⟨found, hfound, howner, h⟩ := h
  cases h
  obtain ⟨haddress, hmint, hfound⟩ := loadToken_eq_ok hfound
  exact ⟨haddress, hmint, howner, hfound⟩

/-- The account a transfer debits is the one loaded under its address. -/
theorem payer_eq {tokens' : TokenTable} {payer payee loaded : TokenAccount}
    {authority : Pubkey} {amount : UInt64}
    (h : Transferred ledger.tokens tokens' payer payee authority amount)
    (hloaded : ledger.tokens.find? loaded.address = some loaded)
    (haddress : payer.address = loaded.address) : payer = loaded := by
  have hfound := h.payer_found
  rw [haddress, hloaded] at hfound
  exact (Option.some.inj hfound).symm

theorem payee_eq {tokens' : TokenTable} {payer payee loaded : TokenAccount}
    {authority : Pubkey} {amount : UInt64}
    (h : Transferred ledger.tokens tokens' payer payee authority amount)
    (hloaded : ledger.tokens.find? loaded.address = some loaded)
    (haddress : payee.address = loaded.address) : payee = loaded := by
  have hfound := h.payee_found
  rw [haddress, hloaded] at hfound
  exact (Option.some.inj hfound).symm

theorem deposit_tokenMove {signers : List Pubkey} {accounts : Deposit}
    {amount : UInt64}
    (h : ledger.deposit solana signers accounts amount = .ok ledger') :
    TokenMove ledger signers (.deposit accounts amount) ledger'.tokens := by
  simp only [deposit, requireSigner, except_bind_eq_ok, rejectIf_eq_ok_iff,
    not_not, exists_const] at h
  obtain ⟨hsigned, _, _, loaded, hloaded, _, _, _, _, _, tokens, hmoved, h⟩ :=
    h
  cases h
  obtain ⟨payer, payee, hfrom, _, hmoved⟩ := transfer_eq_ok hmoved
  obtain ⟨haddress, hmint, _, hfound⟩ := loadTokenOf_eq_ok hloaded
  obtain rfl := payer_eq hmoved hfound (hfrom.trans haddress.symm)
  exact .deposited hsigned hfrom hmint hmoved

theorem guardedWithdraw_tokenMove {signers : List Pubkey}
    {accounts : GuardedWithdraw} {amount : UInt64}
    (h : ledger.guardedWithdraw solana signers accounts amount =
      .ok ledger') :
    TokenMove ledger signers (.guardedWithdraw accounts amount)
      ledger'.tokens := by
  simp only [guardedWithdraw, guarded, requireSigner, except_bind_eq_ok,
    rejectIf_eq_ok_iff, mapError_eq_ok_iff, not_not, exists_const] at h
  obtain ⟨hsigned, vault, hvault, loaded, hloaded, _, _, _, _, _, husdc,
    state, hstate, tokens, hmoved, h⟩ := h
  cases h
  obtain ⟨payer, payee, hfrom, hto, hmoved⟩ := transfer_eq_ok hmoved
  obtain ⟨haddress, hmint, _, hfound⟩ := loadTokenOf_eq_ok hloaded
  obtain rfl := payer_eq hmoved hfound (hfrom.trans haddress.symm)
  exact .withdrew hsigned (loadVault_eq_ok hvault)
    (VaultState.guardedWithdraw_eq_ok hstate).agent_eq hfrom hto hmint husdc
    hmoved

theorem closeVault_tokenMove {signers : List Pubkey} {accounts : CloseVault}
    (h : ledger.closeVault solana signers accounts = .ok ledger') :
    TokenMove ledger signers (.closeVault accounts) ledger'.tokens := by
  obtain ⟨hsigned, vault, payer, payee, drained, tokens, hvault, hvaultToken,
    hownerToken, hdrained, hclosed, rfl⟩ := closeVault_eq_ok h
  obtain ⟨hloaded, howner⟩ := loadOwnVault_eq_ok hvault
  obtain ⟨hfrom, hmint, hauthority, hpayer⟩ := loadTokenOf_eq_ok hvaultToken
  obtain ⟨hto, _, hreceiver, hpayee⟩ := loadTokenOf_eq_ok hownerToken
  obtain ⟨emptied, hemptied, hempty, _, rfl⟩ := closeAccount_eq_ok hclosed
  rw [← hfrom] at hemptied ⊢
  refine .closed hsigned hloaded howner hfrom hto hmint hpayer hpayee
    hauthority hreceiver ?_ hemptied hempty
  rcases hdrained with ⟨hpos, hmoved⟩ | hzero
  · obtain ⟨source, destination, hsource, hdestination, hmoved⟩ :=
      transfer_eq_ok hmoved
    obtain rfl := payer_eq hmoved hpayer (hsource.trans hfrom.symm)
    obtain rfl := payee_eq hmoved hpayee (hdestination.trans hto.symm)
    exact Or.inl ⟨hpos, hmoved⟩
  · exact Or.inr hzero

/-- Every instruction that succeeds makes one of the moves. -/
theorem process_tokenMove {signers : List Pubkey} {instruction : Instruction}
    (h : ledger.process solana signers instruction = .ok ledger') :
    TokenMove ledger signers instruction ledger'.tokens := by
  cases instruction with
  | initializeVault accounts params =>
      simp only [process, initializeVault, except_bind_eq_ok] at h
      obtain ⟨_, _, _, _, _, _, _, _, _, _, state, _, h⟩ := h
      split at h
      · split at h
        · rename_i hnew
          cases h
          exact .opened rfl hnew
        · cases h
      · cases h
  | deposit accounts amount => exact deposit_tokenMove h
  | guardedWithdraw accounts amount => exact guardedWithdraw_tokenMove h
  | updateRules accounts params =>
      simp only [process, updateRules, except_bind_eq_ok] at h
      obtain ⟨_, _, _, _, _, _, h⟩ := h
      cases h
      exact .rulesUpdated
  | revokeAgent accounts =>
      simp only [process, revokeAgent, except_bind_eq_ok] at h
      obtain ⟨_, _, _, _, h⟩ := h
      cases h
      exact .agentRevoked
  | closeVault accounts => exact closeVault_tokenMove h

/-- What an account holds on the ledger. -/
def balance (ledger : Ledger) (address : Pubkey) : ℕ :=
  TokenAccount.balance ledger.tokens address

/-- All tokens of a mint. -/
def supply (ledger : Ledger) (mint : Pubkey) : ℕ :=
  totalOf ledger.tokens fun m _ => decide (m = mint)

end Ledger

/-- The address of a vault is derived from its owner: no key signs for it. -/
def Solana.IsVaultAddress (solana : Solana) (address : Pubkey) : Prop :=
  ∃ owner bump, solana.createVaultAddress owner bump = some address

def LedgerAction.signers : LedgerAction → List Pubkey
  | .tick _ => []
  | .transact signers _ => signers

/-- No transaction is signed by the address of a vault. -/
def Solana.SignedByKeys (solana : Solana) (action : LedgerAction) : Prop :=
  ∀ signer ∈ action.signers, ¬ solana.IsVaultAddress signer

/-- The agent withdrew from the account: exactly the amount, to the destination
that was named. -/
def WithdrawnByAgent (step : Taken Ledger LedgerAction)
    (account : TokenAccount) : Prop :=
  ∃ signers accounts amount vault,
    step.action = .transact signers (.guardedWithdraw accounts amount) ∧
    accounts.vault = account.owner ∧
    accounts.vaultTokenAccount = account.address ∧
    step.before.vault? account.owner = some vault ∧
    accounts.agent = vault.agent ∧ vault.agent ∈ signers ∧
    step.after.balance account.address + amount.toNat =
      step.before.balance account.address ∧
    step.after.balance accounts.destinationTokenAccount =
      step.before.balance accounts.destinationTokenAccount + amount.toNat

/-- The owner closed the account: all of it went to an account of the owner. -/
def ReturnedToOwner (step : Taken Ledger LedgerAction)
    (account : TokenAccount) : Prop :=
  ∃ signers accounts vault receiver,
    step.action = .transact signers (.closeVault accounts) ∧
    accounts.vault = account.owner ∧
    accounts.vaultTokenAccount = account.address ∧
    step.before.vault? account.owner = some vault ∧ vault.owner ∈ signers ∧
    step.before.tokens.find? accounts.ownerTokenAccount = some receiver ∧
    receiver.owner = vault.owner ∧
    step.after.tokens.find? account.address = none ∧
    step.after.balance accounts.ownerTokenAccount =
      step.before.balance accounts.ownerTokenAccount +
        step.before.balance account.address

/-- The agent withdrew from the vault, which changed the counter and its window
only. -/
def CountedForAgent (step : Taken Ledger LedgerAction) (address : Pubkey)
    (vault : VaultState) : Prop :=
  ∃ signers accounts amount spent start,
    step.action = .transact signers (.guardedWithdraw accounts amount) ∧
    accounts.vault = address ∧ vault.agent ∈ signers ∧
    step.after.vault? address =
      some { vault with spentToday := spent, dayWindowStart := start }

/-- The owner updated the rules, revoked the agent or closed the vault. -/
def ChangedByOwner (step : Taken Ledger LedgerAction) (address : Pubkey)
    (vault : VaultState) : Prop :=
  ∃ signers instruction, step.action = .transact signers instruction ∧
    vault.owner ∈ signers ∧
    ((∃ accounts params, instruction = .updateRules accounts params ∧
        accounts.vault = address) ∨
      (∃ accounts, instruction = .revokeAgent accounts ∧
        accounts.vault = address) ∨
      ∃ accounts, instruction = .closeVault accounts ∧
        accounts.vault = address)

/-- A step leaves the vaults in the hands of their agents and owners. -/
structure Custody (solana : Solana) (step : Taken Ledger LedgerAction) :
    Prop where
  tokens : ∀ address account,
    step.before.tokens.find? address = some account →
    solana.IsVaultAddress account.owner →
    step.after.balance address < step.before.balance address →
    WithdrawnByAgent step account ∨ ReturnedToOwner step account
  states : ∀ address vault, step.before.vault? address = some vault →
    step.after.vault? address = some vault ∨
      CountedForAgent step address vault ∨ ChangedByOwner step address vault
  supply : ∀ mint, step.after.supply mint = step.before.supply mint

namespace Ledger

variable {solana : Solana} {ledger ledger' : Ledger}

/-- An account that is already open is not the one that is opened. -/
theorem balance_insert {account opened : TokenAccount} {address : Pubkey}
    (hnew : ¬ ledger.tokens.HasKey opened.address)
    (h : ledger.tokens.find? address = some account) :
    TokenAccount.balance (ledger.tokens.insert opened hnew) address =
      ledger.balance address := by
  apply TokenAccount.balance_congr
  rw [KeyedTable.find?_insert_of_find? hnew h, h]

theorem balance_erase {tokens : TokenTable} {address closed : Pubkey}
    (hne : address ≠ closed) :
    TokenAccount.balance (tokens.erase closed) address =
      TokenAccount.balance tokens address := by
  apply TokenAccount.balance_congr
  rw [KeyedTable.find?_erase, if_neg hne]

/-- The account a transfer debits is the one at the address that loses. -/
theorem payer_of_lost {tokens' : TokenTable}
    {payer payee account : TokenAccount}
    {authority address : Pubkey} {amount : UInt64}
    (h : Transferred ledger.tokens tokens' payer payee authority amount)
    (haccount : ledger.tokens.find? address = some account)
    (hlost : TokenAccount.balance tokens' address < ledger.balance address) :
    address = payer.address ∧ account = payer ∧
      payer.address ≠ payee.address := by
  obtain ⟨rfl, hne⟩ := h.balance_le hlost
  rw [h.payer_found] at haccount
  exact ⟨rfl, (Option.some.inj haccount).symm, hne⟩

theorem tokens_custody {signers : List Pubkey} {instruction : Instruction}
    (hmove : TokenMove ledger signers instruction ledger'.tokens)
    (hsigners : ∀ signer ∈ signers, ¬ solana.IsVaultAddress signer)
    {address : Pubkey} {account : TokenAccount}
    (haccount : ledger.tokens.find? address = some account)
    (hvault : solana.IsVaultAddress account.owner)
    (hlost : ledger'.balance address < ledger.balance address) :
    WithdrawnByAgent ⟨ledger, .transact signers instruction, ledger'⟩
        account ∨
      ReturnedToOwner ⟨ledger, .transact signers instruction, ledger'⟩
        account := by
  unfold balance at hlost
  generalize htokens : ledger'.tokens = tokens at hmove hlost
  cases hmove with
  | rulesUpdated => exact absurd hlost (lt_irrefl _)
  | agentRevoked => exact absurd hlost (lt_irrefl _)
  | opened hempty hnew =>
      rw [balance_insert hnew haccount] at hlost
      exact absurd hlost (lt_irrefl _)
  | deposited hsigned _ _ hmoved =>
      obtain ⟨_, rfl, _⟩ := payer_of_lost hmoved haccount hlost
      rw [hmoved.authorized] at hvault
      exact absurd hvault (hsigners _ hsigned)
  | withdrew hsigned hbefore hagent hfrom hto _ _ hmoved =>
      obtain ⟨rfl, rfl, hne⟩ := payer_of_lost hmoved haccount hlost
      left
      refine ⟨signers, _, _, _, rfl, hmoved.authorized.symm, hfrom.symm, ?_,
        hagent, hagent ▸ hsigned, ?_, ?_⟩
      · rw [hmoved.authorized]
        exact hbefore
      · simp only [balance, htokens]
        exact hmoved.balance_payer hne
      · simp only [balance, htokens, ← hto]
        exact hmoved.balance_payee hne
  | @closed accounts vault payer payee _ drained hsigned hbefore howner hfrom
      hto _ hpayer hpayee hauthority hreceiver hdrained _ _ =>
      by_cases haddress : address = payer.address
      · subst haddress
        obtain rfl : account = payer := by
          rw [hpayer] at haccount
          exact (Option.some.inj haccount).symm
        have hne : account.address ≠ payee.address := by
          intro heq
          rw [heq, hpayee] at hpayer
          have hsame : vault.owner = account.owner := by
            rw [howner, ← hreceiver, Option.some.inj hpayer]
          exact hsigners _ hsigned (howner ▸ hsame ▸ hvault)
        rcases hdrained with ⟨_, hmoved⟩ | ⟨hzero, _⟩
        · right
          refine ⟨signers, accounts, vault, payee, rfl, hauthority.symm,
            hfrom.symm, ?_, howner ▸ hsigned, hto ▸ hpayee,
            hreceiver.trans howner.symm, ?_, ?_⟩
          · rw [hauthority]
            exact hbefore
          · rw [htokens, KeyedTable.find?_erase, if_pos rfl]
          · simp only [balance, htokens, ← hto]
            rw [balance_erase (Ne.symm hne), hmoved.balance_payee hne,
              TokenAccount.balance_eq hpayer]
        · rw [TokenAccount.balance_eq hpayer, hzero] at hlost
          exact absurd hlost (Nat.not_lt_zero _)
      · rw [balance_erase haddress] at hlost
        rcases hdrained with ⟨_, hmoved⟩ | ⟨_, rfl⟩
        · exact absurd (payer_of_lost hmoved haccount hlost).1 haddress
        · exact absurd hlost (lt_irrefl _)

/-- An instruction moves tokens of a mint, and opens and closes empty
accounts. -/
theorem supply_eq {signers : List Pubkey} {instruction : Instruction}
    (hmove : TokenMove ledger signers instruction ledger'.tokens)
    (mint : Pubkey) : ledger'.supply mint = ledger.supply mint := by
  unfold supply
  generalize ledger'.tokens = tokens at hmove
  have htransfer : ∀ {tokens payer payee authority amount},
      Transferred ledger.tokens tokens payer payee authority amount →
      totalOf tokens (fun m _ => decide (m = mint)) =
        totalOf ledger.tokens fun m _ => decide (m = mint) := by
    intro tokens payer payee authority amount h
    have htotal := h.totalOf fun m _ => decide (m = mint)
    simp only [h.mint_eq] at htotal
    omega
  cases hmove with
  | rulesUpdated => rfl
  | agentRevoked => rfl
  | opened hempty hnew =>
      rw [totalOf, KeyedTable.sumOf_insert, held, hempty]
      simp [totalOf]
  | deposited _ _ _ hmoved => exact htransfer hmoved
  | withdrew _ _ _ _ _ _ _ hmoved => exact htransfer hmoved
  | closed _ _ _ _ _ _ _ _ _ _ hdrained hemptied hempty =>
      have herased := KeyedTable.sumOf_erase
        (held fun m _ => decide (m = mint)) hemptied
      rw [held, hempty] at herased
      simp only [UInt64.toNat_zero, ite_self, Nat.add_zero] at herased
      rw [totalOf, herased]
      rcases hdrained with ⟨_, hmoved⟩ | ⟨_, rfl⟩
      · exact htransfer hmoved
      · rfl

/-- What the state of a vault can become. -/
theorem states_custody {signers : List Pubkey} {instruction : Instruction}
    (h : ledger.process solana signers instruction = .ok ledger')
    {address : Pubkey} {vault : VaultState}
    (hvault : ledger.vault? address = some vault) :
    ledger'.vault? address = some vault ∨
      CountedForAgent ⟨ledger, .transact signers instruction, ledger'⟩
        address vault ∨
      ChangedByOwner ⟨ledger, .transact signers instruction, ledger'⟩ address
        vault := by
  obtain ⟨_, moved, hchange, _⟩ := process_changes h address
  generalize hafter : ledger'.vault? address = after at hchange
  rw [hvault] at hchange
  cases hchange with
  | untouched => exact Or.inl rfl
  | withdrew haddress hsigned hstate =>
      have hwithdraws := VaultState.guardedWithdraw_eq_ok hstate
      obtain ⟨spent, start, rfl⟩ := hwithdraws.frame
      right
      left
      exact ⟨signers, _, _, spent, start, rfl, haddress,
        hwithdraws.agent_eq ▸ hsigned, hafter⟩
  | rulesUpdated haddress hsigned _ =>
      exact Or.inr (Or.inr ⟨signers, _, rfl, hsigned,
        Or.inl ⟨_, _, rfl, haddress⟩⟩)
  | agentRevoked haddress hsigned =>
      exact Or.inr (Or.inr ⟨signers, _, rfl, hsigned,
        Or.inr (Or.inl ⟨_, rfl, haddress⟩)⟩)
  | closed haddress hsigned =>
      exact Or.inr (Or.inr ⟨signers, _, rfl, hsigned,
        Or.inr (Or.inr ⟨_, rfl, haddress⟩)⟩)

theorem step_custody {action : LedgerAction}
    (h : ledger.step solana action = some ledger')
    (hsigned : solana.SignedByKeys action) :
    Custody solana ⟨ledger, action, ledger'⟩ := by
  rcases step_transact h with
    ⟨later, rfl, _, rfl⟩ | ⟨signers, instruction, rfl, hprocess⟩
  · refine ⟨?_, ?_, ?_⟩
    · intro address account _ _ hlost
      exact absurd hlost (lt_irrefl _)
    · intro address vault hvault
      exact Or.inl hvault
    · intro mint
      rfl
  · have hmove := process_tokenMove hprocess
    refine ⟨?_, ?_, supply_eq hmove⟩
    · intro address account haccount hvault hlost
      exact tokens_custody hmove hsigned haccount hvault hlost
    · intro address vault hvault
      exact states_custody hprocess hvault

end Ledger

/-- In every run by arbitrary signers every step leaves the vaults in the hands
of their agents and owners. -/
theorem vaults_in_custody {solana : Solana} {now : Int64} {tokens : TokenTable}
    {steps : List (Taken Ledger LedgerAction)} {ledger : Ledger}
    (trail : Trail (Ledger.step solana) (Ledger.start now tokens) steps ledger)
    (hsigned : ∀ step ∈ steps, solana.SignedByKeys step.action) :
    ∀ step ∈ steps, Custody solana step := by
  intro step hstep
  have hcustody := trail.forall_taken
    (P := fun step => solana.SignedByKeys step.action → Custody solana step)
    fun _ _ _ htaken hsigned => Ledger.step_custody htaken hsigned
  exact hcustody step hstep (hsigned step hstep)

namespace VaultSample

/-- The owner and the agent hold keys. -/
theorem signedByKeys {ledger ledger' : Ledger} {actions : List LedgerAction}
    {steps : List (Taken Ledger LedgerAction)}
    (hexec : execTrail (Ledger.step chain) ledger actions =
      some (steps, ledger'))
    (h : ∀ action ∈ actions, ∀ signer ∈ action.signers,
      signer = owner ∨ signer = agent) :
    ∀ step ∈ steps, chain.SignedByKeys step.action := by
  intro step hstep signer hsigner
  have hmem : step.action ∈ actions := by
    rw [← execTrail_actions hexec]
    exact List.mem_map_of_mem hstep
  rintro ⟨seed, bump, haddress⟩
  simp only [chain] at haddress
  split at haddress
  · obtain rfl := Option.some.inj haddress
    rcases h step.action hmem vault hsigner with hvault | hvault
    · exact absurd hvault (by decide)
    · exact absurd hvault (by decide)
  · cases haddress

end VaultSample

/-- A vault is created and funded, and its agent withdraws. -/
theorem vaults_in_custody_sample : ∃ steps ledger,
    Trail (Ledger.step VaultSample.chain)
      (Ledger.start VaultSample.noon VaultSample.tokens) steps ledger ∧
    ledger.balance VaultSample.shopToken = 100_000_000 ∧
    ∀ step ∈ steps, Custody VaultSample.chain step := by
  have hrun : (execTrail (Ledger.step VaultSample.chain)
      (Ledger.start VaultSample.noon VaultSample.tokens)
      [VaultSample.create, VaultSample.fund, VaultSample.withdraw]).map
      (fun result => result.2.balance VaultSample.shopToken) =
        some 100_000_000 := by
    decide
  obtain ⟨⟨steps, ledger⟩, hexec, hbalance⟩ := Option.map_eq_some_iff.mp hrun
  have trail := trail_of_execTrail hexec
  have hsigned := VaultSample.signedByKeys hexec (by decide)
  exact ⟨steps, ledger, trail, hbalance, vaults_in_custody trail hsigned⟩

end X402Guard
