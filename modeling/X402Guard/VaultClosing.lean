/-
What a closed vault leaves behind.  `deposit` credits any token account of the
vault, `close_vault` drains the one account it is given: the others keep what
they hold.
-/
import X402Guard.GenuineUsdc

namespace X402Guard

open Interaction TokenAccount

/-- A token account of the authority for a canonical USDC mint. -/
def usdcFor (authority mint owner : Pubkey) : Bool :=
  decide (IsUsdcMint mint ∧ owner = authority)

namespace Ledger

/-- All USDC in the token accounts of an authority. -/
def usdcOf (ledger : Ledger) (authority : Pubkey) : ℕ :=
  totalOf ledger.tokens (usdcFor authority)

end Ledger

/-- After a closing the vault holds no USDC: what it held is the owner's. -/
def ReturnsAll (step : Taken Ledger LedgerAction) : Prop :=
  ∀ signers accounts,
    step.action = .transact signers (.closeVault accounts) →
    (∀ address account, step.after.tokens.find? address = some account →
      account.owner = accounts.vault → IsUsdcMint account.mint →
      account.amount = 0) ∧
    step.after.usdcOf accounts.owner =
      step.before.usdcOf accounts.owner + step.before.usdcOf accounts.vault

/-- The closing names the only token account in which the vault holds USDC. -/
def NamesOnlyHolding (step : Taken Ledger LedgerAction) : Prop :=
  ∀ signers accounts,
    step.action = .transact signers (.closeVault accounts) →
    ∀ address account, step.before.tokens.find? address = some account →
      account.owner = accounts.vault → IsUsdcMint account.mint →
      address ≠ accounts.vaultTokenAccount → account.amount = 0

namespace Ledger

variable {solana : Solana} {ledger ledger' : Ledger}

theorem isVaultAddress_of_loadOwnVault {address owner : Pubkey}
    {vault : VaultState}
    (h : ledger.loadOwnVault solana address owner = .ok vault) :
    solana.IsVaultAddress address := by
  simp only [loadOwnVault, loadVault, except_bind_eq_ok, okOr_eq_ok_iff,
    rejectIf_eq_ok_iff, not_not, exists_const] at h
  obtain ⟨_, ⟨account, _, hseeds, _⟩, _⟩ := h
  exact ⟨_, _, hseeds⟩

/-- What a closing did to the token accounts, with the account it drained and
the one it credited. -/
structure Closed (ledger : Ledger) (accounts : CloseVault)
    (tokens : TokenTable) (payer payee : TokenAccount) : Prop where
  payer_address : payer.address = accounts.vaultTokenAccount
  payer_found : ledger.tokens.find? payer.address = some payer
  payer_owner : payer.owner = accounts.vault
  payee_owner : payee.owner = accounts.owner
  owner_ne : accounts.owner ≠ accounts.vault
  drained : ∃ drained,
    ((0 < payer.amount ∧ Transferred ledger.tokens drained payer payee
        accounts.vault payer.amount) ∨
      (payer.amount = 0 ∧ drained = ledger.tokens)) ∧
    tokens = drained.erase payer.address

theorem closed_of_closeVault {signers : List Pubkey} {accounts : CloseVault}
    (h : ledger.closeVault solana signers accounts = .ok ledger')
    (hsigners : ∀ signer ∈ signers, ¬ solana.IsVaultAddress signer) :
    ∃ payer payee, ledger.Closed accounts ledger'.tokens payer payee := by
  obtain ⟨hsigned, vault, _, _, _, _, hvault, _⟩ := closeVault_eq_ok h
  have howner : accounts.owner ≠ accounts.vault := by
    intro heq
    apply hsigners _ hsigned
    rw [heq]
    exact isVaultAddress_of_loadOwnVault hvault
  have hmove := closeVault_tokenMove h
  generalize ledger'.tokens = tokens at hmove
  cases hmove with
  | @closed _ vault payer payee _ drained _ _ _ hfrom _ _ hpayer _ hauthority
      hreceiver hdrained _ _ =>
      exact ⟨payer, payee, hfrom, hpayer, hauthority, hreceiver, howner,
        drained, hdrained, rfl⟩

namespace Closed

variable {accounts : CloseVault} {tokens : TokenTable}
variable {payer payee : TokenAccount}

theorem address_ne (h : ledger.Closed accounts tokens payer payee)
    (hpayee : ledger.tokens.find? payee.address = some payee) :
    payer.address ≠ payee.address := by
  intro heq
  have hpayer := h.payer_found
  rw [heq, hpayee] at hpayer
  apply h.owner_ne
  rw [← h.payee_owner, ← h.payer_owner, Option.some.inj hpayer]

/-- The vault keeps every other account as it is. -/
theorem find?_iff (h : ledger.Closed accounts tokens payer payee)
    {address : Pubkey} {account : TokenAccount}
    (howner : account.owner = accounts.vault) :
    tokens.find? address = some account ↔
      address ≠ accounts.vaultTokenAccount ∧
        ledger.tokens.find? address = some account := by
  obtain ⟨drained, hdrained, htokens⟩ := h.drained
  rw [htokens, KeyedTable.find?_erase, ← h.payer_address]
  by_cases haddress : address = payer.address
  · simp [haddress]
  · rw [if_neg haddress]
    rcases hdrained with ⟨_, hmoved⟩ | ⟨_, rfl⟩
    · by_cases hpayee : address = payee.address
      · obtain ⟨received, _, hfound⟩ :=
          hmoved.find?_payee (h.address_ne hmoved.payee_found)
        have hnot : ∀ amount, { payee with amount := amount } ≠ account := by
          rintro amount rfl
          exact h.owner_ne (h.payee_owner.symm.trans howner)
        simp [hpayee, hfound, hmoved.payee_found, hnot]
      · rw [hmoved.find?_of_ne haddress hpayee]
        simp [haddress]
    · simp [haddress]

/-- What the named account held, if it was USDC, is credited to the owner. -/
theorem usdcOf_owner (h : ledger.Closed accounts ledger'.tokens payer payee) :
    ledger'.usdcOf accounts.owner = ledger.usdcOf accounts.owner +
      held (usdcFor accounts.vault) payer := by
  obtain ⟨drained, hdrained, htokens⟩ := h.drained
  have hnotOwner : ∀ amount, held (usdcFor accounts.owner)
      { payer with amount := amount } = 0 := by
    intro amount
    rw [held, if_neg]
    rw [usdcFor, decide_eq_true_iff, not_and]
    intro _ howner
    exact h.owner_ne (howner.symm.trans h.payer_owner)
  unfold usdcOf
  rw [htokens]
  rcases hdrained with ⟨_, hmoved⟩ | ⟨hzero, rfl⟩
  · have herased := KeyedTable.sumOf_erase (held (usdcFor accounts.owner))
      (hmoved.find?_payer (h.address_ne hmoved.payee_found))
    rw [hnotOwner, Nat.add_zero] at herased
    have htotal := hmoved.totalOf (usdcFor accounts.owner)
    have hpayer : usdcFor accounts.owner payer.mint payer.owner = false := by
      simp [usdcFor, h.payer_owner, Ne.symm h.owner_ne]
    have hpayee : usdcFor accounts.owner payee.mint payee.owner =
        usdcFor accounts.vault payer.mint payer.owner := by
      simp [usdcFor, h.payer_owner, h.payee_owner, hmoved.mint_eq]
    rw [hpayer, hpayee] at htotal
    rw [totalOf, herased]
    exact htotal
  · have herased := KeyedTable.sumOf_erase (held (usdcFor accounts.owner))
      h.payer_found
    have hpayer : held (usdcFor accounts.owner) payer = 0 :=
      hnotOwner payer.amount
    have hnothing : held (usdcFor accounts.vault) payer = 0 := by
      simp [held, hzero]
    rw [hpayer, Nat.add_zero] at herased
    rw [totalOf, herased, hnothing, Nat.add_zero]
    rfl

/-- The vault holds nothing but the named account, if the others are empty. -/
theorem usdcOf_vault (h : ledger.Closed accounts tokens payer payee)
    (hothers : ∀ address account,
      ledger.tokens.find? address = some account →
      account.owner = accounts.vault → IsUsdcMint account.mint →
      address ≠ accounts.vaultTokenAccount → account.amount = 0) :
    ledger.usdcOf accounts.vault = held (usdcFor accounts.vault) payer := by
  have herased := KeyedTable.sumOf_erase (held (usdcFor accounts.vault))
    h.payer_found
  have hzero : (ledger.tokens.erase payer.address).sumOf
      (held (usdcFor accounts.vault)) = 0 := by
    apply KeyedTable.sumOf_eq_zero
    intro account haccount
    rw [KeyedTable.find?_erase] at haccount
    split at haccount
    · cases haccount
    · rename_i hne
      unfold held
      split
      · rename_i hcounted
        obtain ⟨hmint, howner⟩ := of_decide_eq_true hcounted
        rw [hothers _ _ haccount howner hmint
          (h.payer_address ▸ hne)]
        rfl
      · rfl
  rw [hzero, Nat.zero_add] at herased
  exact herased.symm

end Closed

theorem step_returnsAll_iff {action : LedgerAction}
    (h : ledger.step solana action = some ledger')
    (hsigned : solana.SignedByKeys action) :
    ReturnsAll ⟨ledger, action, ledger'⟩ ↔
      NamesOnlyHolding ⟨ledger, action, ledger'⟩ := by
  have hclosed : ∀ signers accounts,
      action = .transact signers (.closeVault accounts) →
      ∃ payer payee, ledger.Closed accounts ledger'.tokens payer payee := by
    rintro signers accounts rfl
    exact closed_of_closeVault (process_of_step h) hsigned
  constructor
  · intro hreturns signers accounts haction address account haccount howner
      hmint hother
    obtain ⟨payer, payee, hclosing⟩ := hclosed signers accounts haction
    apply (hreturns signers accounts haction).1 address account _ howner hmint
    exact (hclosing.find?_iff howner).mpr ⟨hother, haccount⟩
  · intro honly signers accounts haction
    obtain ⟨payer, payee, hclosing⟩ := hclosed signers accounts haction
    have hothers := honly signers accounts haction
    constructor
    · intro address account haccount howner hmint
      obtain ⟨hother, hbefore⟩ := (hclosing.find?_iff howner).mp haccount
      exact hothers address account hbefore howner hmint hother
    · rw [hclosing.usdcOf_owner, hclosing.usdcOf_vault hothers]

end Ledger

/-- In every run the closings return all USDC exactly when each names the only
token account in which the vault holds any. -/
theorem closings_returnAll_iff {solana : Solana} {now : Int64}
    {tokens : TokenTable} {steps : List (Taken Ledger LedgerAction)}
    {ledger : Ledger}
    (trail : Trail (Ledger.step solana) (Ledger.start now tokens) steps ledger)
    (hsigned : ∀ step ∈ steps, solana.SignedByKeys step.action) :
    (∀ step ∈ steps, ReturnsAll step) ↔
      ∀ step ∈ steps, NamesOnlyHolding step := by
  have hsteps := trail.forall_taken
    (P := fun step => solana.SignedByKeys step.action →
      (ReturnsAll step ↔ NamesOnlyHolding step))
    fun _ _ _ htaken hkeys => Ledger.step_returnsAll_iff htaken hkeys
  apply forall₂_congr
  intro step hstep
  exact hsteps step hstep (hsigned step hstep)

namespace VaultSample

def close : LedgerAction :=
  .transact [owner]
    (.closeVault ⟨owner, vault, vaultToken, ownerToken, usdcMintDevnet⟩)

end VaultSample

/-- A vault with a single token account is closed. -/
theorem closings_returnAll_sample : ∃ steps ledger,
    Trail (Ledger.step VaultSample.chain)
      (Ledger.start VaultSample.noon VaultSample.tokens) steps ledger ∧
    ledger.balance VaultSample.ownerToken = 1_000_000_000 ∧
    ((∀ step ∈ steps, ReturnsAll step) ↔
      ∀ step ∈ steps, NamesOnlyHolding step) := by
  have hrun : (execTrail (Ledger.step VaultSample.chain)
      (Ledger.start VaultSample.noon VaultSample.tokens)
      [VaultSample.create, VaultSample.fund, VaultSample.close]).map
      (fun result => result.2.balance VaultSample.ownerToken) =
        some 1_000_000_000 := by
    decide
  obtain ⟨⟨steps, ledger⟩, hexec, hbalance⟩ := Option.map_eq_some_iff.mp hrun
  have trail := trail_of_execTrail hexec
  have hsigned := VaultSample.signedByKeys hexec (by decide)
  exact ⟨steps, ledger, trail, hbalance,
    closings_returnAll_iff trail hsigned⟩

namespace VaultSample

/-- Another USDC account of the vault. -/
def spareToken : Pubkey := key 11

theorem spareToken_new : ¬ tokens.HasKey spareToken := by
  decide

def tokensWithSpare : TokenTable :=
  tokens.insert ⟨spareToken, usdcMintDevnet, vault, 0⟩ spareToken_new

def fundSpare : LedgerAction :=
  .transact [owner]
    (.deposit ⟨owner, vault, ownerToken, spareToken, usdcMintDevnet⟩
      1_000_000_000)

end VaultSample

/-- A deposit to another account of the vault is still there after the
closing. -/
theorem closings_not_returnAll : ¬ ∀ solana now tokens steps ledger,
    Trail (Ledger.step solana) (Ledger.start now tokens) steps ledger →
    (∀ step ∈ steps, solana.SignedByKeys step.action) →
    ∀ step ∈ steps, ReturnsAll step := by
  intro h
  have hrun : (execTrail (Ledger.step VaultSample.chain)
      (Ledger.start VaultSample.noon VaultSample.tokensWithSpare)
      [VaultSample.create, VaultSample.fundSpare, VaultSample.close]).map
      (fun result => result.1.map fun step =>
        (step.action, step.after.tokens.find? VaultSample.spareToken)) =
      some [(VaultSample.create, some ⟨VaultSample.spareToken,
          usdcMintDevnet, VaultSample.vault, 0⟩),
        (VaultSample.fundSpare, some ⟨VaultSample.spareToken,
          usdcMintDevnet, VaultSample.vault, 1_000_000_000⟩),
        (VaultSample.close, some ⟨VaultSample.spareToken,
          usdcMintDevnet, VaultSample.vault, 1_000_000_000⟩)] := by
    decide
  obtain ⟨⟨steps, ledger⟩, hexec, hseen⟩ := Option.map_eq_some_iff.mp hrun
  have hsigned := VaultSample.signedByKeys hexec (by decide)
  have hmem : (VaultSample.close, some (⟨VaultSample.spareToken,
      usdcMintDevnet, VaultSample.vault, 1_000_000_000⟩ : TokenAccount)) ∈
      steps.map fun step =>
        (step.action, step.after.tokens.find? VaultSample.spareToken) := by
    rw [hseen]
    simp
  obtain ⟨step, hstep, hsame⟩ := List.mem_map.mp hmem
  simp only [Prod.mk.injEq] at hsame
  obtain ⟨haction, hfound⟩ := hsame
  have hempty := (h _ _ _ _ _ (trail_of_execTrail hexec) hsigned step hstep _
    _ haction).1 _ _ hfound rfl (Or.inl rfl)
  exact absurd hempty (by decide)

end X402Guard
