/-
Who is the agent of a vault.  Over a whole run the key that can withdraw is the
one its owner supplied last, and none after a revocation; and an active vault
has an agent as long as no revoked one is unpaused without a new key.
-/
import X402Guard.AgentExpiry
import X402Guard.RollingCap
import X402Guard.RunHistory
import X402Guard.TokenCustody

namespace X402Guard

open Interaction

namespace LedgerAction

/-- The agent key that the transaction supplies to the vault, if any. -/
def suppliedAgent? (address : Pubkey) : LedgerAction → Option Pubkey
  | .transact _ (.initializeVault accounts params) =>
      if accounts.vault = address then some params.agent else none
  | .transact _ (.updateRules accounts params) =>
      if accounts.vault = address then params.newAgent else none
  | _ => none

/-- Does the transaction revoke the agent of the vault? -/
def revokes (address : Pubkey) : LedgerAction → Bool
  | .transact _ (.revokeAgent accounts) => accounts.vault == address
  | _ => false

/-- It leaves the agent of the vault as it is. -/
@[mk_iff]
structure KeepsAgent (address : Pubkey) (action : LedgerAction) : Prop where
  suppliedAgent : action.suppliedAgent? address = none
  revokes : action.revokes address = false
  closes : action.closes address = false

theorem keepsAgent_of_target_ne {address : Pubkey} {signers : List Pubkey}
    {instruction : Instruction} (h : instruction.target ≠ some address) :
    KeepsAgent address (.transact signers instruction) := by
  cases instruction <;>
    simp_all [keepsAgent_iff, Instruction.target, suppliedAgent?, revokes,
      closes]

end LedgerAction

/-- The key was supplied to the vault, and since then no other was, and the
vault was neither revoked nor closed. -/
def AgentInForce (address agent : Pubkey)
    (steps : List (Taken Ledger LedgerAction)) : Prop :=
  Since (fun step => step.action.suppliedAgent? address = some agent)
    (fun step => step.action.KeepsAgent address) steps

variable {solana : Solana} {now : Int64} {tokens : TokenTable}
variable {ledger ledger' : Ledger} {address : Pubkey}
variable {steps : List (Taken Ledger LedgerAction)}

/-- The agent of the vault is the zero key or the one in force. -/
def AgentKnown (address : Pubkey) (steps : List (Taken Ledger LedgerAction))
    (vault? : Option VaultState) : Prop :=
  ∀ vault ∈ vault?, vault.agent = .zero ∨
    AgentInForce address vault.agent steps

/-- A vault whose agent is kept still has the one in force. -/
theorem AgentKnown.kept {before after : Option VaultState}
    {taken : Taken Ledger LedgerAction}
    (h : AgentKnown address steps before)
    (hkeeps : taken.action.KeepsAgent address)
    (hagent : after.map VaultState.agent = before.map VaultState.agent) :
    AgentKnown address (steps ++ [taken]) after := by
  intro vault' hvault'
  rw [Option.mem_def.mp hvault'] at hagent
  obtain ⟨vault, hvault, hsame⟩ := Option.map_eq_some_iff.mp hagent.symm
  rw [← hsame]
  rcases h vault hvault with hzero | hforce
  · exact Or.inl hzero
  · exact Or.inr (since_snoc_iff.mpr (Or.inr ⟨hforce, hkeeps⟩))

/-- A key that was just supplied is in force. -/
theorem AgentKnown.supplied {vault : VaultState}
    {taken : Taken Ledger LedgerAction}
    (h : taken.action.suppliedAgent? address = some vault.agent) :
    AgentKnown address (steps ++ [taken]) (some vault) := by
  rintro _ ⟨⟩
  exact Or.inr (since_snoc_iff.mpr (Or.inl h))

theorem AgentKnown.transact {signers : List Pubkey}
    {instruction : Instruction} {ledger₁ ledger₂ : Ledger}
    {before after : Option VaultState} {moved : List Withdrawal}
    (h : AgentKnown address steps before)
    (hchange : VaultChange now signers address instruction before after
      moved) :
    AgentKnown address
      (steps ++ [⟨ledger₁, .transact signers instruction, ledger₂⟩])
      after := by
  cases hchange with
  | untouched hother =>
      exact h.kept (LedgerAction.keepsAgent_of_target_ne hother) rfl
  | initialized haddress _ hvault =>
      obtain ⟨_, _, _, _, _, rfl⟩ :=
        VaultState.initializeVault_eq_ok_iff.mp hvault
      exact .supplied (if_pos haddress)
  | withdrew haddress _ hvault =>
      obtain ⟨_, _, rfl⟩ := (VaultState.guardedWithdraw_eq_ok hvault).frame
      exact h.kept ⟨rfl, rfl, rfl⟩ rfl
  | @rulesUpdated accounts params _ _ haddress _ hvault =>
      have hagent := congrArg VaultState.agent (VaultState.updateRules_eq hvault)
      rw [VaultState.withRules] at hagent
      cases hsupplied : params.newAgent with
      | none =>
          rw [hsupplied] at hagent
          refine h.kept ⟨?_, rfl, rfl⟩ (congrArg some hagent)
          rw [LedgerAction.suppliedAgent?, if_pos haddress, hsupplied]
      | some key =>
          rw [hsupplied] at hagent
          apply AgentKnown.supplied
          rw [LedgerAction.suppliedAgent?, if_pos haddress, hsupplied, hagent]
          rfl
  | agentRevoked =>
      rintro _ ⟨⟩
      exact Or.inl rfl
  | closed =>
      rintro _ ⟨⟩

/-- In every run the agent of a vault is the zero key or the one in force. -/
theorem agentKnown_of_trail
    (trail : Trail (Ledger.step solana) (Ledger.start now tokens) steps
      ledger) (address : Pubkey) :
    AgentKnown address steps (ledger.vault? address) := by
  refine Ledger.vault_of_trail (P := AgentKnown address) trail ?_ ?_ ?_
  · rintro _ ⟨⟩
  · intro steps before after later vault? hknown
    exact hknown.kept ⟨rfl, rfl, rfl⟩ rfl
  · intro steps before after signers instruction moved _ hknown hchange
    exact hknown.transact hchange

/-- A withdrawal after the given steps is made by the agent in force; a
revocation was followed by a new key. -/
structure ByAgentInForce (earlier : List (Taken Ledger LedgerAction))
    (signers : List Pubkey) (accounts : GuardedWithdraw) : Prop where
  signed : accounts.agent ∈ signers
  inForce : AgentInForce accounts.vault accounts.agent earlier
  rearmed : ∀ before revocation since,
    earlier = before ++ revocation :: since →
    revocation.action.revokes accounts.vault = true →
    AgentInForce accounts.vault accounts.agent since

theorem LedgerAction.suppliedAgent?_of_revokes {action : LedgerAction}
    (h : action.revokes address = true) :
    action.suppliedAgent? address = none := by
  cases action with
  | tick => rfl
  | transact signers instruction =>
      cases instruction <;> simp_all [revokes, suppliedAgent?]

/-- In every run in which nobody signs with the zero key, each withdrawal is
made by the agent that was supplied last, after the last revocation. -/
theorem withdrawals_byAgentInForce
    {earlier later : List (Taken Ledger LedgerAction)}
    {taken : Taken Ledger LedgerAction} {signers : List Pubkey}
    {accounts : GuardedWithdraw} {amount : UInt64}
    (trail : Trail (Ledger.step solana) (Ledger.start now tokens)
      (earlier ++ taken :: later) ledger)
    (hzero : ∀ step ∈ earlier ++ taken :: later,
      Bytes32.zero ∉ step.action.signers)
    (haction : taken.action =
      .transact signers (.guardedWithdraw accounts amount)) :
    ByAgentInForce earlier signers accounts := by
  obtain ⟨hearlier, htaken⟩ := trail.cut
  rw [haction] at htaken
  obtain ⟨hsigned, vault, _, _, hvault, _, hwithdraws⟩ :=
    Ledger.guardedWithdraw_withdraws (Ledger.process_of_step htaken)
  have hknown := agentKnown_of_trail hearlier accounts.vault vault hvault
  have hforce : AgentInForce accounts.vault accounts.agent earlier := by
    rw [hwithdraws.agent_eq]
    apply hknown.resolve_left
    intro hagent
    apply hzero taken (by simp)
    rw [haction, ← hagent, ← hwithdraws.agent_eq]
    exact hsigned
  refine ⟨hsigned, hforce, ?_⟩
  rintro before revocation since rfl hrevokes
  apply hforce.after
  · simp [LedgerAction.suppliedAgent?_of_revokes hrevokes]
  · rintro ⟨_, hkept, _⟩
    rw [hrevokes] at hkept
    cases hkept

namespace VaultSample

def revoke : LedgerAction :=
  .transact [owner] (.revokeAgent ⟨owner, vault⟩)

def newAgent : Pubkey := key 8

/-- Unpause the vault with another agent. -/
def rearm : LedgerAction :=
  .transact [owner] (.updateRules ⟨owner, vault⟩
    ⟨none, none, none, some newAgent, none, some true⟩)

def newWithdrawal : GuardedWithdraw :=
  ⟨newAgent, vault, vaultToken, shopToken, usdcMintDevnet⟩

end VaultSample

/-- The agent is revoked and another takes its place. -/
theorem withdrawals_byAgentInForce_sample : ∃ earlier taken ledger,
    Trail (Ledger.step VaultSample.chain)
      (Ledger.start VaultSample.noon VaultSample.tokens)
      (earlier ++ [taken]) ledger ∧
    earlier.map Taken.action = [VaultSample.create, VaultSample.fund,
      VaultSample.withdraw, VaultSample.revoke, VaultSample.rearm] ∧
    taken.action = .transact [VaultSample.newAgent]
      (.guardedWithdraw VaultSample.newWithdrawal VaultSample.perTx) ∧
    ByAgentInForce earlier [VaultSample.newAgent]
      VaultSample.newWithdrawal := by
  have hrun : (execTrail (Ledger.step VaultSample.chain)
      (Ledger.start VaultSample.noon VaultSample.tokens)
      ([VaultSample.create, VaultSample.fund, VaultSample.withdraw,
        VaultSample.revoke, VaultSample.rearm] ++
        [.transact [VaultSample.newAgent]
          (.guardedWithdraw VaultSample.newWithdrawal
            VaultSample.perTx)])).isSome = true := by
    decide
  obtain ⟨⟨steps, ledger⟩, hexec⟩ := Option.isSome_iff_exists.mp hrun
  have trail := trail_of_execTrail hexec
  have hactions := execTrail_actions hexec
  obtain ⟨earlier, last, rfl, hearlier, hlast⟩ :=
    List.map_eq_append_iff.mp hactions
  obtain ⟨taken, rfl, htaken⟩ := List.map_eq_singleton_iff.mp hlast
  refine ⟨earlier, taken, ledger, trail, hearlier, htaken, ?_⟩
  apply withdrawals_byAgentInForce trail ?_ htaken
  intro step hstep
  have hmem := List.mem_map_of_mem (f := Taken.action) hstep
  rw [hactions] at hmem
  revert hmem
  generalize step.action = action
  revert action
  decide

/-- Every active vault has an agent. -/
def ActiveHasAgent (ledger : Ledger) : Prop :=
  ∀ address vault, ledger.vault? address = some vault →
    vault.isActive = true → vault.agent ≠ .zero

/-- An update that activates a revoked vault supplies a new key. -/
def ActivatesWithKey (step : Taken Ledger LedgerAction) : Prop :=
  ∀ signers accounts params vault,
    step.action = .transact signers (.updateRules accounts params) →
    step.before.vault? accounts.vault = some vault →
    vault.agent = .zero → params.newIsActive = some true →
    params.newAgent ≠ none

namespace VaultState

/-- An update of a vault whose agent was in order leaves it in order, unless it
activates the vault without a key. -/
theorem updateRules_activeHasAgent {vault vault' : VaultState}
    {params : UpdateRulesParams} (h : vault.updateRules params = .ok vault')
    (hvault : vault.isActive = true → vault.agent ≠ .zero) :
    (vault'.isActive = true → vault'.agent ≠ .zero) ↔
      (vault.agent = .zero → params.newIsActive = some true →
        params.newAgent ≠ none) := by
  obtain ⟨hagent, _, _, _, _, rfl⟩ := updateRules_eq_ok_iff.mp h
  simp only [withRules]
  cases hnew : params.newAgent with
  | some key => simp_all
  | none =>
      cases hactive : params.newIsActive with
      | none => simp_all
      | some active => cases active <;> simp_all

end VaultState

/-- What an instruction does to one vault keeps an active one with an agent,
unless it activates it without a key. -/
theorem VaultChange.activeHasAgent {signers : List Pubkey}
    {instruction : Instruction} {before after : Option VaultState}
    {moved : List Withdrawal}
    (hchange : VaultChange now signers address instruction before after moved)
    (hbefore : ∀ vault ∈ before, vault.isActive = true →
      vault.agent ≠ .zero)
    (hupdate : ∀ accounts params, ∀ vault ∈ before,
      instruction = .updateRules accounts params →
      accounts.vault = address → vault.agent = .zero →
      params.newIsActive = some true → params.newAgent ≠ none) :
    ∀ vault ∈ after, vault.isActive = true → vault.agent ≠ .zero := by
  cases hchange with
  | untouched => exact hbefore
  | initialized _ _ hvault =>
      obtain ⟨hagent, _, _, _, _, rfl⟩ :=
        VaultState.initializeVault_eq_ok_iff.mp hvault
      rintro _ ⟨⟩ _
      exact hagent
  | @withdrew _ _ _ _ vault _ _ _ hvault =>
      obtain ⟨_, _, rfl⟩ := (VaultState.guardedWithdraw_eq_ok hvault).frame
      rintro _ ⟨⟩
      exact hbefore vault rfl
  | rulesUpdated haddress _ hvault =>
      rintro _ ⟨⟩
      apply (VaultState.updateRules_activeHasAgent hvault
        (hbefore _ rfl)).mpr
      exact hupdate _ _ _ rfl rfl haddress
  | agentRevoked =>
      rintro _ ⟨⟩ hactive
      cases hactive
  | closed =>
      rintro _ ⟨⟩

theorem Ledger.step_activeHasAgent_iff {action : LedgerAction}
    (hactive : ActiveHasAgent ledger)
    (h : ledger.step solana action = some ledger') :
    ActiveHasAgent ledger' ↔ ActivatesWithKey ⟨ledger, action, ledger'⟩ := by
  rcases step_transact h with
    ⟨later, rfl, _, rfl⟩ | ⟨signers, instruction, rfl, hprocess⟩
  · constructor
    · intro _ _ _ _ _ htick
      cases htick
    · intro _
      exact hactive
  · constructor
    · rintro hafter _ accounts params vault ⟨⟩ hvault
      obtain ⟨_, _, hchange, _⟩ := process_changes hprocess accounts.vault
      have hnew := hafter accounts.vault
      change ledger.vault? accounts.vault = some vault at hvault
      generalize ledger'.vault? accounts.vault = after at hchange hnew
      rw [hvault] at hchange
      cases hchange with
      | untouched hother => exact absurd rfl hother
      | rulesUpdated _ _ hupdated =>
          exact (VaultState.updateRules_activeHasAgent hupdated
            (hactive _ _ hvault)).mp (hnew _ rfl)
    · intro hkey address
      obtain ⟨_, _, hchange, _⟩ := process_changes hprocess address
      apply hchange.activeHasAgent (hactive address)
      rintro accounts params vault hvault rfl rfl
      exact hkey signers accounts params vault rfl hvault

/-- In every run the active vaults have an agent all along exactly when no
update activates a revoked vault without a new key. -/
theorem activeHasAgent_iff
    (trail : Trail (Ledger.step solana) (Ledger.start now tokens) steps
      ledger) :
    (∀ step ∈ steps, ActiveHasAgent step.after) ↔
      ∀ step ∈ steps, ActivatesWithKey step := by
  apply trail.states_iff
  · rintro address vault ⟨⟩
  · intro before action after hactive htaken
    exact Ledger.step_activeHasAgent_iff hactive htaken

/-- The agent is revoked and another takes its place. -/
theorem activeHasAgent_sample : ∃ steps ledger,
    Trail (Ledger.step VaultSample.chain)
      (Ledger.start VaultSample.noon VaultSample.tokens) steps ledger ∧
    steps.map Taken.action =
      [VaultSample.create, VaultSample.revoke, VaultSample.rearm] ∧
    ((∀ step ∈ steps, ActiveHasAgent step.after) ↔
      ∀ step ∈ steps, ActivatesWithKey step) := by
  have hrun : (execTrail (Ledger.step VaultSample.chain)
      (Ledger.start VaultSample.noon VaultSample.tokens)
      [VaultSample.create, VaultSample.revoke,
        VaultSample.rearm]).isSome = true := by
    decide
  obtain ⟨⟨steps, ledger⟩, hexec⟩ := Option.isSome_iff_exists.mp hrun
  have trail := trail_of_execTrail hexec
  exact ⟨steps, ledger, trail, execTrail_actions hexec,
    activeHasAgent_iff trail⟩

/-- Unpause the vault, and nothing else. -/
def VaultSample.unpause : LedgerAction :=
  .transact [owner] (.updateRules ⟨owner, vault⟩
    ⟨none, none, none, none, none, some true⟩)

/-- A revoked vault that is unpaused is active without an agent. -/
theorem not_activeHasAgent : ¬ ∀ solana now tokens steps ledger,
    Trail (Ledger.step solana) (Ledger.start now tokens) steps ledger →
    ActiveHasAgent ledger := by
  intro h
  have hrun : (execTrail (Ledger.step VaultSample.chain)
      (Ledger.start VaultSample.noon VaultSample.tokens)
      [VaultSample.create, VaultSample.revoke, VaultSample.unpause]).map
      (fun result => (result.2.vault? VaultSample.vault).map fun vault =>
        (vault.isActive, vault.agent)) = some (some (true, .zero)) := by
    decide
  obtain ⟨⟨steps, ledger⟩, hexec, hseen⟩ := Option.map_eq_some_iff.mp hrun
  obtain ⟨vault, hvault, hsame⟩ := Option.map_eq_some_iff.mp hseen
  obtain ⟨hactive, hagent⟩ := Prod.mk.injEq _ _ _ _ ▸ hsame
  exact h _ _ _ _ _ (trail_of_execTrail hexec) _ vault hvault hactive hagent

end X402Guard
