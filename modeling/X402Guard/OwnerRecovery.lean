/-
What the owner of a vault can always do.  Whatever the agent and anyone else
have sent, the account that the vault was created with is still there, the
owner can revoke the agent, and the owner can close the vault and get back all
that this account holds.  Of the chain this assumes that the bump it finds makes
the address it finds, that the supply of a mint fits a `u64`, and that nobody
freezes token accounts.
-/
import X402Guard.FreshWindow
import X402Guard.VaultClosing

namespace X402Guard

open Interaction TokenAccount

/-- An instruction leaves the mint and the authority of a token account as they
are, or closes the account for the vault that has the authority. -/
theorem TokenMove.keeps {ledger : Ledger} {signers : List Pubkey}
    {instruction : Instruction} {tokens : TokenTable}
    (h : TokenMove ledger signers instruction tokens) {address : Pubkey}
    {account : TokenAccount}
    (haccount : ledger.tokens.find? address = some account) :
    (∃ account', tokens.find? address = some account' ∧
        account'.mint = account.mint ∧ account'.owner = account.owner) ∨
      ∃ accounts, instruction = .closeVault accounts ∧
        accounts.vault = account.owner := by
  have hmoved : ∀ {tokens' payer payee authority amount},
      Transferred ledger.tokens tokens' payer payee authority amount →
      ∃ account', tokens'.find? address = some account' ∧
        account'.mint = account.mint ∧ account'.owner = account.owner := by
    intro tokens' payer payee authority amount hmoved
    rcases hmoved.result with ⟨_, rfl⟩ | ⟨hne, _⟩
    · exact ⟨account, haccount, rfl, rfl⟩
    by_cases hpayer : address = payer.address
    · obtain rfl : payer = account := by
        rw [hpayer, hmoved.payer_found] at haccount
        exact Option.some.inj haccount
      rw [hpayer]
      exact ⟨_, hmoved.find?_payer hne, rfl, rfl⟩
    by_cases hpayee : address = payee.address
    · obtain rfl : payee = account := by
        rw [hpayee, hmoved.payee_found] at haccount
        exact Option.some.inj haccount
      obtain ⟨received, _, hfound⟩ := hmoved.find?_payee hne
      rw [hpayee]
      exact ⟨_, hfound, rfl, rfl⟩
    · exact ⟨account, (hmoved.find?_of_ne hpayer hpayee).trans haccount, rfl,
        rfl⟩
  cases h with
  | rulesUpdated => exact Or.inl ⟨account, haccount, rfl, rfl⟩
  | agentRevoked => exact Or.inl ⟨account, haccount, rfl, rfl⟩
  | opened hempty hnew =>
      exact Or.inl ⟨account, KeyedTable.find?_insert_of_find? hnew haccount,
        rfl, rfl⟩
  | deposited _ _ _ hmoved' => exact Or.inl (hmoved hmoved')
  | withdrew _ _ _ _ _ _ _ hmoved' => exact Or.inl (hmoved hmoved')
  | @closed accounts _ payer payee _ drained _ _ _ _ _ _ hpayer _ hauthority _
      hdrained _ _ =>
      by_cases haddress : address = payer.address
      · right
        refine ⟨accounts, rfl, ?_⟩
        rw [haddress, hpayer] at haccount
        rw [← Option.some.inj haccount, hauthority]
      · left
        rw [KeyedTable.find?_erase, if_neg haddress]
        rcases hdrained with ⟨_, hmoved'⟩ | ⟨_, rfl⟩
        · exact hmoved hmoved'
        · exact ⟨account, haccount, rfl, rfl⟩

/-- The token account that a vault was created with, for a canonical mint. -/
structure Ledger.HomeAccount (solana : Solana) (ledger : Ledger)
    (address mint : Pubkey) (account : TokenAccount) : Prop where
  canonical : IsUsdcMint mint
  mint_found : solana.isMint mint = true
  found : ledger.tokens.find? (solana.associatedTokenAddress address mint) =
    some account
  mint_eq : account.mint = mint
  owner_eq : account.owner = address

/-- A vault under its address has such an account, and its owner holds a
key. -/
structure Ledger.Recoverable (solana : Solana) (ledger : Ledger)
    (address : Pubkey) (vault : VaultState) : Prop where
  home : ∃ mint account, ledger.HomeAccount solana address mint account
  owner : ¬ solana.IsVaultAddress vault.owner

section Steps

variable {solana : Solana} {ledger ledger' : Ledger} {address : Pubkey}

theorem Ledger.initializeVault_home {signers : List Pubkey}
    {accounts : InitializeVault} {params : InitializeVaultParams}
    (h : ledger.initializeVault solana signers accounts params =
      .ok ledger') :
    ∃ account, ledger'.HomeAccount solana accounts.vault accounts.usdcMint
      account := by
  simp only [initializeVault, guarded, requireSigner, loadMint,
    except_bind_eq_ok, rejectIf_eq_ok_iff, mapError_eq_ok_iff, not_not,
    exists_const] at h
  obtain ⟨_, _, hassociated, hmint, _, husdc, state, _, h⟩ := h
  split at h
  · split at h
    · cases h
      refine ⟨⟨accounts.vaultTokenAccount, accounts.usdcMint,
        accounts.vault, 0⟩, ?_⟩
      exact {
        canonical := isUsdcMint_of_checkUsdcMint husdc
        mint_found := by simpa using hmint
        found := by
          rw [← hassociated, KeyedTable.find?_insert, if_pos rfl]
        mint_eq := rfl
        owner_eq := rfl }
    · cases h
  · cases h

/-- A vault that is still there after an instruction keeps its account. -/
theorem Ledger.HomeAccount.process {signers : List Pubkey}
    {instruction : Instruction} {mint : Pubkey} {account : TokenAccount}
    {vault : VaultState}
    (h : ledger.HomeAccount solana address mint account)
    (hprocess : ledger.process solana signers instruction = .ok ledger')
    (hvault : ledger'.vault? address = some vault) :
    ∃ account', ledger'.HomeAccount solana address mint account' := by
  rcases (Ledger.process_tokenMove hprocess).keeps h.found with
    ⟨account', hfound, hmint, howner⟩ | ⟨accounts, rfl, haccounts⟩
  · exact ⟨account', {
      canonical := h.canonical
      mint_found := h.mint_found
      found := hfound
      mint_eq := hmint.trans h.mint_eq
      owner_eq := howner.trans h.owner_eq }⟩
  · -- closing the vault would have removed it
    obtain ⟨_, _, _, _, _, _, _, _, _, _, _, rfl⟩ := closeVault_eq_ok hprocess
    rw [haccounts, h.owner_eq] at hvault
    simp [vault?, KeyedTable.find?_erase] at hvault

/-- Every instruction keeps every vault recoverable. -/
theorem recoverable_process {signers : List Pubkey}
    {instruction : Instruction}
    (hsigners : ∀ signer ∈ signers, ¬ solana.IsVaultAddress signer)
    (hprocess : ledger.process solana signers instruction = .ok ledger')
    (h : ∀ vault ∈ ledger.vault? address,
      ledger.Recoverable solana address vault) :
    ∀ vault ∈ ledger'.vault? address,
      ledger'.Recoverable solana address vault := by
  intro vault hvault
  have hkept : ∀ before ∈ ledger.vault? address,
      vault.owner = before.owner →
      ledger'.Recoverable solana address vault := by
    intro before hbefore howner
    obtain ⟨⟨mint, account, hhome⟩, hkey⟩ := h before hbefore
    obtain ⟨account', hhome'⟩ := hhome.process hprocess hvault
    exact ⟨⟨mint, account', hhome'⟩, howner ▸ hkey⟩
  obtain ⟨_, moved, hchange, _⟩ := Ledger.process_changes hprocess address
  generalize hbefore : ledger.vault? address = before at hchange
  generalize hafter : ledger'.vault? address = after at hchange
  rw [hafter] at hvault
  cases hchange with
  | untouched => exact hkept vault (hbefore.trans hvault) rfl
  | @initialized accounts params bump _ haddress hsigned hstate =>
      obtain rfl := Option.some.inj hvault
      obtain ⟨account, hhome⟩ := Ledger.initializeVault_home hprocess
      obtain ⟨_, _, _, _, _, rfl⟩ :=
        VaultState.initializeVault_eq_ok_iff.mp hstate
      exact ⟨⟨_, account, haddress ▸ hhome⟩, hsigners _ hsigned⟩
  | @withdrew _ _ _ _ earlier _ _ _ hstate =>
      obtain rfl := Option.some.inj hvault
      obtain ⟨_, _, rfl⟩ := (VaultState.guardedWithdraw_eq_ok hstate).frame
      exact hkept earlier hbefore rfl
  | @rulesUpdated _ _ earlier _ _ _ hstate =>
      obtain rfl := Option.some.inj hvault
      obtain rfl := VaultState.updateRules_eq hstate
      exact hkept earlier hbefore rfl
  | @agentRevoked _ earlier =>
      obtain rfl := Option.some.inj hvault
      exact hkept earlier hbefore rfl
  | closed => cases hvault

end Steps

section Runs

variable {solana : Solana} {now : Int64} {tokens : TokenTable}
variable {ledger : Ledger} {steps : List (Taken Ledger LedgerAction)}
variable {address : Pubkey} {vault : VaultState}

theorem recoverable_of_trail
    (trail : Trail (Ledger.step solana) (Ledger.start now tokens) steps
      ledger)
    (hsigned : ∀ step ∈ steps, solana.SignedByKeys step.action) :
    ∀ vault ∈ ledger.vault? address,
      ledger.Recoverable solana address vault := by
  induction trail with
  | nil => rintro _ ⟨⟩
  | snoc trail taken ih =>
      rw [List.forall_mem_append, List.forall_mem_singleton] at hsigned
      have hbefore := ih hsigned.1
      rcases Ledger.step_transact taken with
        ⟨later, rfl, _, rfl⟩ | ⟨signers, instruction, rfl, hprocess⟩
      · intro vault hvault
        obtain ⟨⟨mint, account, hhome⟩, hkey⟩ := hbefore vault hvault
        exact ⟨⟨mint, account, ⟨hhome.canonical, hhome.mint_found,
          hhome.found, hhome.mint_eq, hhome.owner_eq⟩⟩, hkey⟩
      · exact recoverable_process hsigned.2 hprocess hbefore

/-- The supply of every mint still fits. -/
theorem supplyFits_of_trail (h : SupplyFits tokens)
    (trail : Trail (Ledger.step solana) (Ledger.start now tokens) steps
      ledger) : SupplyFits ledger.tokens := by
  induction trail with
  | nil => exact h
  | snoc trail taken ih =>
      rcases Ledger.step_transact taken with
        ⟨later, rfl, _, rfl⟩ | ⟨signers, instruction, rfl, hprocess⟩
      · exact ih
      · intro mint
        have hsupply := Ledger.supply_eq
          (Ledger.process_tokenMove hprocess) mint
        unfold Ledger.supply at hsupply
        rw [hsupply]
        exact ih mint

theorem Ledger.loadOwnVault_of_seeds {owner : Pubkey}
    (hvault : ledger.vault? address = some vault)
    (hseeds : solana.createVaultAddress vault.owner vault.bump =
      some address) (howner : vault.owner = owner) :
    ledger.loadOwnVault solana address owner = .ok vault := by
  simp only [loadOwnVault, except_bind_eq_ok, rejectIf_eq_ok_iff, not_not,
    exists_const]
  exact ⟨vault, loadVault_of_seeds hvault hseeds, howner, rfl⟩

/-- What draining an account into another of the same mint leaves. -/
theorem TokenAccount.drain {tokens : TokenTable} {payer payee : TokenAccount}
    (hsupply : SupplyFits tokens)
    (hpayer : tokens.find? payer.address = some payer)
    (hpayee : tokens.find? payee.address = some payee)
    (hmint : payer.mint = payee.mint) (hne : payer.address ≠ payee.address) :
    ∃ drained tokens',
      (if payer.amount > 0 then
        transfer tokens payer.address payee.address payer.owner payer.amount
      else .ok tokens) = .ok drained ∧
      closeAccount drained payer.address payer.owner = .ok tokens' ∧
      balance tokens' payee.address =
        balance tokens payee.address + balance tokens payer.address := by
  have hclose : ∀ {drained : TokenTable} {emptied : TokenAccount},
      drained.find? payer.address = some emptied → emptied.amount = 0 →
      emptied.owner = payer.owner →
      closeAccount drained payer.address payer.owner =
        .ok (drained.erase payer.address) := by
    intro drained emptied hfound hempty howner
    simp only [closeAccount, except_bind_eq_ok, okOr_eq_ok_iff,
      rejectIf_eq_ok_iff, not_not, exists_const]
    exact ⟨emptied, hfound, hempty, howner, rfl⟩
  by_cases hpos : payer.amount > 0
  · obtain ⟨drained, hmoved⟩ := transfer_succeeds hsupply hpayer hpayee hmint
      (UInt64.le_refl payer.amount)
    obtain ⟨source, destination, hsource, hdestination, htransferred⟩ :=
      transfer_eq_ok hmoved
    obtain rfl : source = payer := by
      have hfound := htransferred.payer_found
      rw [hsource, hpayer] at hfound
      exact (Option.some.inj hfound).symm
    obtain rfl : destination = payee := by
      have hfound := htransferred.payee_found
      rw [hdestination, hpayee] at hfound
      exact (Option.some.inj hfound).symm
    refine ⟨drained, _, by rw [if_pos hpos, hmoved], hclose
      (htransferred.find?_payer hne) (UInt64.sub_self ..) rfl, ?_⟩
    rw [Ledger.balance_erase (Ne.symm hne), htransferred.balance_payee hne,
      balance_eq hpayer]
  · have hzero : payer.amount = 0 := by
      by_contra hnonzero
      exact hpos (UInt64.pos_iff_ne_zero.mpr hnonzero)
    refine ⟨tokens, _, by rw [if_neg hpos], hclose hpayer hzero rfl, ?_⟩
    rw [Ledger.balance_erase (Ne.symm hne), balance_eq hpayer, hzero]
    rfl

/-- In every run, whoever sent whatever, the account that a vault was created
with is there, its owner can revoke the agent, and its owner can close the
vault and get all that the account holds. -/
theorem owner_keeps_control
    (trail : Trail (Ledger.step solana) (Ledger.start now tokens) steps
      ledger)
    (hsigned : ∀ step ∈ steps, solana.SignedByKeys step.action)
    (hfinds : solana.FindsAddresses) (hsupply : SupplyFits tokens)
    (hvault : ledger.vault? address = some vault) :
    (∃ mint account, ledger.HomeAccount solana address mint account) ∧
    (∃ ledger', ledger.process solana [vault.owner]
        (.revokeAgent ⟨vault.owner, address⟩) = .ok ledger' ∧
      ledger'.vault? address = some vault.revokeAgent) ∧
    ∀ mint account receiver,
      ledger.HomeAccount solana address mint account →
      ledger.tokens.find? receiver.address = some receiver →
      receiver.mint = mint → receiver.owner = vault.owner →
      ∃ ledger', ledger.process solana [vault.owner]
          (.closeVault ⟨vault.owner, address,
            solana.associatedTokenAddress address mint, receiver.address,
            mint⟩) = .ok ledger' ∧
        ledger'.vault? address = none ∧
        ledger'.balance receiver.address =
          ledger.balance receiver.address + account.amount.toNat := by
  have hseeds := seeds_of_trail hfinds trail hvault
  have hown := Ledger.loadOwnVault_of_seeds hvault hseeds rfl
  obtain ⟨hhome, hkey⟩ := recoverable_of_trail trail hsigned vault hvault
  have hsupply' := supplyFits_of_trail hsupply trail
  refine ⟨hhome, ?_, ?_⟩
  · obtain ⟨stored, hstored, _⟩ := Option.map_eq_some_iff.mp hvault
    simp only [Ledger.process, Ledger.revokeAgent, requireSigner,
      except_bind_eq_ok, rejectIf_eq_ok_iff, not_not, exists_const]
    refine ⟨_, ⟨List.mem_singleton_self _, vault, hown, rfl⟩, ?_⟩
    simp [Ledger.vault?, KeyedTable.find?_replace, hstored]
  · intro mint account receiver hhome hreceiver hmint howner
    have haddress := (KeyedTable.find?_eq_some_iff.mp hhome.found).2
    have hne : account.address ≠ receiver.address := by
      intro heq
      have hfound := hhome.found
      rw [← haddress, heq, hreceiver] at hfound
      apply hkey
      rw [← howner, Option.some.inj hfound, hhome.owner_eq]
      exact ⟨_, _, hseeds⟩
    obtain ⟨drained, tokens, hdrained, hclosed, hbalance⟩ :=
      TokenAccount.drain hsupply' (haddress ▸ hhome.found) hreceiver
        (hhome.mint_eq.trans hmint.symm) hne
    rw [haddress, hhome.owner_eq] at hdrained hclosed
    have hfrom := Ledger.loadTokenOf_of_find? hhome.found hhome.mint_eq
      hhome.owner_eq
    have hto := Ledger.loadTokenOf_of_find? hreceiver hmint howner
    have hmint' : ¬ solana.isMint mint = false := by simp [hhome.mint_found]
    simp only [Ledger.process, Ledger.closeVault, requireSigner,
      Ledger.loadMint, except_bind_eq_ok, rejectIf_eq_ok_iff, not_not,
      exists_const]
    refine ⟨{ ledger with vaults := ledger.vaults.erase address, tokens },
      ⟨List.mem_singleton_self _, vault, hown, account, hfrom, receiver, hto,
        hmint', ?_⟩, ?_, ?_⟩
    · split at hdrained
      · rename_i hpos
        rw [if_pos hpos]
        simp only [except_bind_eq_ok]
        exact ⟨drained, hdrained, tokens, hclosed, rfl⟩
      · rename_i hzero
        rw [if_neg hzero]
        simp only [except_bind_eq_ok]
        exact ⟨drained, hdrained, tokens, hclosed, rfl⟩
    · simp [Ledger.vault?, KeyedTable.find?_erase]
    · rw [haddress, balance_eq hhome.found] at hbalance
      exact hbalance

end Runs

namespace VaultSample

theorem seedChain_signedByKeys {ledger ledger' : Ledger}
    {actions : List LedgerAction} {steps : List (Taken Ledger LedgerAction)}
    (hexec : execTrail (Ledger.step seedChain) ledger actions =
      some (steps, ledger'))
    (h : ∀ action ∈ actions, ∀ signer ∈ action.signers, signer ≠ vault) :
    ∀ step ∈ steps, seedChain.SignedByKeys step.action := by
  intro step hstep signer hsigner
  have hmem : step.action ∈ actions := by
    rw [← execTrail_actions hexec]
    exact List.mem_map_of_mem hstep
  rintro ⟨seed, bump, haddress⟩
  simp only [seedChain] at haddress
  split at haddress
  · exact h step.action hmem signer hsigner (Option.some.inj haddress).symm
  · cases haddress

end VaultSample

/-- The agent has used up its day, and the owner closes the vault. -/
theorem owner_keeps_control_sample : ∃ steps ledger ledger',
    Trail (Ledger.step VaultSample.seedChain)
      (Ledger.start VaultSample.noon VaultSample.tokens) steps ledger ∧
    steps.map Taken.action = VaultSample.spentDay ∧
    ledger.process VaultSample.seedChain [VaultSample.owner]
      (.closeVault ⟨VaultSample.owner, VaultSample.vault,
        VaultSample.vaultToken, VaultSample.ownerToken, usdcMintDevnet⟩) =
        .ok ledger' ∧
    ledger'.vault? VaultSample.vault = none ∧
    ledger'.balance VaultSample.ownerToken =
      ledger.balance VaultSample.ownerToken + 800_000_000 := by
  have hrun : (execTrail (Ledger.step VaultSample.seedChain)
      (Ledger.start VaultSample.noon VaultSample.tokens)
      VaultSample.spentDay).map (fun run =>
        (run.2.vault? VaultSample.vault,
          run.2.tokens.find? VaultSample.vaultToken,
          run.2.tokens.find? VaultSample.ownerToken)) =
      some (some VaultSample.spentVault, some VaultSample.fundedToken,
        some ⟨VaultSample.ownerToken, usdcMintDevnet, VaultSample.owner,
          0⟩) := by
    decide
  obtain ⟨⟨steps, ledger⟩, hexec, hseen⟩ := Option.map_eq_some_iff.mp hrun
  simp only [Prod.mk.injEq] at hseen
  obtain ⟨hvault, hhome, hreceiver⟩ := hseen
  have trail := trail_of_execTrail hexec
  obtain ⟨_, _, hclose⟩ := owner_keeps_control trail
    (VaultSample.seedChain_signedByKeys hexec (by decide)) (fun _ => rfl)
    (supplyFits_of_sumOf (by decide)) hvault
  obtain ⟨ledger', hprocess, hgone, hbalance⟩ := hclose usdcMintDevnet
    VaultSample.fundedToken
    ⟨VaultSample.ownerToken, usdcMintDevnet, VaultSample.owner, 0⟩
    ⟨Or.inl rfl, by decide, hhome, rfl, rfl⟩ hreceiver rfl rfl
  exact ⟨steps, ledger, ledger', trail, execTrail_actions hexec, hprocess,
    hgone, hbalance⟩

end X402Guard
