/-
The account of a vault: how its state is laid out in bytes, and why the space
that is allocated for it once is always enough.  Whatever fields an update
provides, the limits stay ordered, the whitelist short, and the owner and the
bump those of the initialization.
-/
import X402Guard.Borsh
import X402Guard.RollingCap
import X402Guard.RunHistory
import X402Guard.TokenCustody

namespace X402Guard

open Interaction
open Borsh (Serialize serialize)

instance : Serialize Pubkey := ⟨Bytes32.bytes⟩

@[simp] theorem length_serialize_pubkey (key : Pubkey) :
    (serialize key).length = 32 := key.length_eq

namespace VaultState

/-- The fields in the order of their declaration. -/
instance : Serialize VaultState where
  serialize vault :=
    serialize vault.owner ++ (serialize vault.agent ++
    (serialize vault.maxSpendPerTx ++ (serialize vault.maxSpendPerDay ++
    (serialize vault.spentToday ++ (serialize vault.dayWindowStart ++
    (serialize vault.agentExpiresAt ++ (serialize vault.allowedPrograms ++
    (serialize vault.isActive ++ (serialize vault.bump ++
    serialize vault.reserved)))))))))

/-- Anchor's discriminator in front of every account. -/
def discriminatorLen : ℕ := 8

/-- `VaultState::SPACE`. -/
def space : ℕ :=
  discriminatorLen + 32 + 32 + 8 + 8 + 8 + 8 + 8 +
    (4 + 32 * maxAllowedPrograms) + 1 + 1 + 64

theorem serialize_eq (vault : VaultState) : serialize vault =
    serialize vault.owner ++ (serialize vault.agent ++
    (serialize vault.maxSpendPerTx ++ (serialize vault.maxSpendPerDay ++
    (serialize vault.spentToday ++ (serialize vault.dayWindowStart ++
    (serialize vault.agentExpiresAt ++ (serialize vault.allowedPrograms ++
    (serialize vault.isActive ++ (serialize vault.bump ++
    serialize vault.reserved))))))))) := rfl

theorem length_serialize (vault : VaultState) :
    (serialize vault).length = 174 + 32 * vault.allowedPrograms.length := by
  rw [serialize_eq]
  simp only [List.length_append, length_serialize_pubkey,
    Borsh.length_serialize_uint64, Borsh.length_serialize_int64,
    Borsh.length_serialize_list length_serialize_pubkey,
    Borsh.length_serialize_bool, Borsh.length_serialize_uint8,
    Borsh.length_serialize_vector]
  omega

/-- What every vault on the ledger satisfies. -/
structure WellFormed (vault : VaultState) : Prop where
  perTx_pos : 0 < vault.maxSpendPerTx
  perTx_le : vault.maxSpendPerTx ≤ vault.maxSpendPerDay
  fewPrograms : vault.allowedPrograms.length ≤ maxAllowedPrograms

/-- Ten programs are what the space is made for. -/
theorem WellFormed.fits {vault : VaultState} (h : vault.WellFormed) :
    discriminatorLen + (serialize vault).length ≤ space := by
  have hfew := h.fewPrograms
  rw [length_serialize]
  simp only [discriminatorLen, space, maxAllowedPrograms] at hfew ⊢
  omega

theorem initializeVault_wellFormed {params : InitializeVaultParams}
    {owner : Pubkey} {bump : UInt8} {now : Int64} {vault : VaultState}
    (h : initializeVault params owner bump now = .ok vault) :
    vault.WellFormed := by
  obtain ⟨_, hperTx, _, hle, hfew, rfl⟩ := initializeVault_eq_ok_iff.mp h
  exact ⟨hperTx, hle, hfew⟩

/-- Any update that is accepted leaves a well-formed vault well formed. -/
theorem updateRules_wellFormed {vault vault' : VaultState}
    {params : UpdateRulesParams} (h : vault.updateRules params = .ok vault')
    (hvault : vault.WellFormed) : vault'.WellFormed := by
  obtain ⟨_, hperTx, _, hle, hfew, rfl⟩ := updateRules_eq_ok_iff.mp h
  refine ⟨?_, hle, ?_⟩
  · change 0 < params.newMaxSpendPerTx.getD vault.maxSpendPerTx
    cases hnew : params.newMaxSpendPerTx with
    | none => exact hvault.perTx_pos
    | some limit =>
        apply UInt64.pos_iff_ne_zero.mpr
        rintro rfl
        exact hperTx hnew
  · change (params.newAllowedPrograms.getD vault.allowedPrograms).length ≤ _
    cases hnew : params.newAllowedPrograms with
    | none => exact hvault.fewPrograms
    | some programs => exact hfew programs hnew

end VaultState

/-- Does the transaction initialize the vault? -/
def LedgerAction.initializes (address : Pubkey) : LedgerAction → Bool
  | .transact _ (.initializeVault accounts _) => accounts.vault == address
  | _ => false

/-- The step initializes the vault, with the owner and the bump it has. -/
def InitializedAs (address : Pubkey) (vault : VaultState)
    (step : Taken Ledger LedgerAction) : Prop :=
  ∃ signers accounts params first,
    step.action = .transact signers (.initializeVault accounts params) ∧
    accounts.vault = address ∧ first.owner = accounts.owner ∧
    step.after.vault? address = some first ∧
    vault.owner = first.owner ∧ vault.bump = first.bump

/-- The last initialization of the vault set its owner and its bump, and the
vault has not been closed since. -/
def KeepsInitialized (address : Pubkey)
    (steps : List (Taken Ledger LedgerAction)) (vault : VaultState) : Prop :=
  Since (InitializedAs address vault)
    (fun step => step.action.initializes address = false ∧
      step.action.closes address = false) steps

variable {address : Pubkey} {steps : List (Taken Ledger LedgerAction)}

theorem KeepsInitialized.snoc {vault vault' : VaultState}
    (h : KeepsInitialized address steps vault) {last : Taken Ledger LedgerAction}
    (howner : vault'.owner = vault.owner ∧ vault'.bump = vault.bump)
    (hinitializes : last.action.initializes address = false)
    (hcloses : last.action.closes address = false) :
    KeepsInitialized address (steps ++ [last]) vault' := by
  apply since_snoc_iff.mpr
  refine Or.inr ⟨?_, hinitializes, hcloses⟩
  unfold KeepsInitialized InitializedAs at h
  unfold InitializedAs
  rwa [howner.1, howner.2]

theorem initializes_of_target_ne {signers : List Pubkey}
    {instruction : Instruction} (h : instruction.target ≠ some address) :
    LedgerAction.initializes address (.transact signers instruction) =
        false ∧
      LedgerAction.closes address (.transact signers instruction) =
        false := by
  cases instruction <;>
    simp_all [Instruction.target, LedgerAction.initializes,
      LedgerAction.closes]

/-- What an instruction does to a vault keeps it well formed and under its
owner. -/
theorem VaultChange.wellKept {signers : List Pubkey}
    {instruction : Instruction} {before : Option VaultState}
    {moved : List Withdrawal} {ledger ledger' : Ledger}
    (hchange : VaultChange ledger.now signers address instruction before
      (ledger'.vault? address) moved)
    (hbefore : ∀ vault ∈ before, vault.WellFormed ∧
      KeepsInitialized address steps vault) :
    ∀ vault ∈ ledger'.vault? address, vault.WellFormed ∧
      KeepsInitialized address
        (steps ++ [⟨ledger, .transact signers instruction, ledger'⟩])
        vault := by
  generalize hafter : ledger'.vault? address = after at hchange
  cases hchange with
  | untouched hother =>
      obtain ⟨hinitializes, hcloses⟩ := initializes_of_target_ne hother
      intro vault hvault
      obtain ⟨hformed, hkept⟩ := hbefore vault hvault
      exact ⟨hformed, hkept.snoc ⟨rfl, rfl⟩ hinitializes hcloses⟩
  | @initialized accounts params _ vault haddress _ hvault =>
      rintro _ ⟨⟩
      refine ⟨VaultState.initializeVault_wellFormed hvault, ?_⟩
      apply since_snoc_iff.mpr
      refine Or.inl ⟨signers, accounts, params, vault, rfl, haddress, ?_,
        hafter, rfl, rfl⟩
      obtain ⟨_, _, _, _, _, rfl⟩ :=
        VaultState.initializeVault_eq_ok_iff.mp hvault
      rfl
  | @withdrew _ _ _ _ vault _ _ _ hvault =>
      obtain ⟨_, _, rfl⟩ := (VaultState.guardedWithdraw_eq_ok hvault).frame
      rintro _ ⟨⟩
      obtain ⟨hformed, hkept⟩ := hbefore vault rfl
      exact ⟨⟨hformed.1, hformed.2, hformed.3⟩,
        hkept.snoc ⟨rfl, rfl⟩ rfl rfl⟩
  | rulesUpdated _ _ hvault =>
      rintro _ ⟨⟩
      obtain ⟨hformed, hkept⟩ := hbefore _ rfl
      refine ⟨VaultState.updateRules_wellFormed hvault hformed, ?_⟩
      obtain rfl := VaultState.updateRules_eq hvault
      exact hkept.snoc ⟨rfl, rfl⟩ rfl rfl
  | @agentRevoked _ vault =>
      rintro _ ⟨⟩
      obtain ⟨hformed, hkept⟩ := hbefore vault rfl
      exact ⟨⟨hformed.1, hformed.2, hformed.3⟩,
        hkept.snoc ⟨rfl, rfl⟩ rfl rfl⟩
  | closed =>
      rintro _ ⟨⟩

variable {solana : Solana} {now : Int64} {tokens : TokenTable}
variable {ledger : Ledger}

theorem wellKept_of_trail
    (trail : Trail (Ledger.step solana) (Ledger.start now tokens) steps
      ledger) :
    ∀ vault ∈ ledger.vault? address, vault.WellFormed ∧
      KeepsInitialized address steps vault := by
  refine Ledger.vault_of_trail (P := fun steps vault? => ∀ vault ∈ vault?,
    vault.WellFormed ∧ KeepsInitialized address steps vault) trail ?_ ?_ ?_
  · rintro _ ⟨⟩
  · intro steps before after later vault? hwell vault hvault
    obtain ⟨hformed, hkept⟩ := hwell vault hvault
    exact ⟨hformed, hkept.snoc ⟨rfl, rfl⟩ rfl rfl⟩
  · intro steps before after signers instruction moved _ hwell hchange
    exact hchange.wellKept hwell

/-- In every run a vault has ordered limits, fits the space of its account, and
has the owner and the bump it was initialized with. -/
theorem vault_wellKept {vault : VaultState}
    (trail : Trail (Ledger.step solana) (Ledger.start now tokens) steps
      ledger)
    (hvault : ledger.vault? address = some vault) :
    vault.WellFormed ∧
      VaultState.discriminatorLen + (serialize vault).length ≤
        VaultState.space ∧
      KeepsInitialized address steps vault := by
  obtain ⟨hformed, hkept⟩ := wellKept_of_trail trail vault hvault
  exact ⟨hformed, hformed.fits, hkept⟩

/-- Two programs for the whitelist, and a new limit alone. -/
def VaultSample.tighten : LedgerAction :=
  .transact [owner] (.updateRules ⟨owner, vault⟩
    ⟨some 50_000_000, none, some [key 7, key 9], none, none, none⟩)

theorem vault_wellKept_sample : ∃ steps ledger vault,
    Trail (Ledger.step VaultSample.chain)
      (Ledger.start VaultSample.noon VaultSample.tokens) steps ledger ∧
    steps.map Taken.action = [VaultSample.create, VaultSample.tighten] ∧
    ledger.vault? VaultSample.vault = some vault ∧
    vault.allowedPrograms.length = 2 ∧ vault.WellFormed ∧
    VaultState.discriminatorLen + (serialize vault).length ≤
      VaultState.space ∧
    KeepsInitialized VaultSample.vault steps vault := by
  have hrun : (execTrail (Ledger.step VaultSample.chain)
      (Ledger.start VaultSample.noon VaultSample.tokens)
      [VaultSample.create, VaultSample.tighten]).map
      (fun result => (result.2.vault? VaultSample.vault).map fun vault =>
        vault.allowedPrograms.length) = some (some 2) := by
    decide
  obtain ⟨⟨steps, ledger⟩, hexec, hseen⟩ := Option.map_eq_some_iff.mp hrun
  obtain ⟨vault, hvault, hprograms⟩ := Option.map_eq_some_iff.mp hseen
  have trail := trail_of_execTrail hexec
  exact ⟨steps, ledger, vault, trail, execTrail_actions hexec, hvault,
    hprograms, vault_wellKept trail hvault⟩

end X402Guard
