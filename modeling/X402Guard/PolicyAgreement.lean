/-
The pre-flight checks against the guardrails of `guarded_withdraw`.  The two
state one policy twice.  Once each is said over the integers, they differ in the
amount of zero, in the second the agent expires, in a clock before the epoch, in
a window that has run out, and in a token account that is listed by its address.
-/
import X402Guard.AgentExpiry
import X402Guard.SolanaPreflight

namespace X402Guard

open Interaction
open Borsh (Holds serialize)

namespace VaultState

/-- What the guardrails ask of a withdrawal that the agent signs. -/
structure Accepts (vault : VaultState) (amount : UInt64)
    (destAuthority destAddress : Pubkey) (now : Int64) : Prop where
  active : vault.isActive = true
  notExpired : 0 < vault.agentExpiresAt → now < vault.agentExpiresAt
  amount_pos : 0 < amount
  perTx : amount ≤ vault.maxSpendPerTx
  ageFits : vault.AgeFits now
  perDay : vault.spentAt now + amount.toNat ≤ vault.maxSpendPerDay.toNat
  listed : vault.allowedPrograms = [] ∨
    destAuthority ∈ vault.allowedPrograms ∨ destAddress ∈ vault.allowedPrograms

/-- Exactly these withdrawals pass the guardrails. -/
theorem guardedWithdraw_accepts_iff {vault : VaultState} {now : Int64}
    {amount : UInt64} {destAuthority destAddress : Pubkey} :
    (∃ vault', vault.guardedWithdraw vault.agent now amount destAuthority
      destAddress = .ok vault') ↔
      vault.Accepts amount destAuthority destAddress now := by
  simp only [guardedWithdraw, except_bind_eq_ok, rejectIf_eq_ok_iff,
    okOr_eq_ok_iff, exists_and_left, exists_const, not_not,
    resetWindow_eq_ok_iff]
  constructor
  · rintro ⟨hactive, _, hexpiry, hpos, hperTx, _, _, ⟨hage, rfl⟩, total,
      htotal, hcap, hlisted, _⟩
    rw [windowAt_maxSpendPerDay, UInt64.le_iff_toNat_le,
      checkedAdd_toNat htotal, windowAt_spentToday] at hcap
    rw [windowAt_allowedPrograms] at hlisted
    exact ⟨hactive, by simpa using hexpiry, hpos, hperTx, hage, hcap,
      by tauto⟩
  · rintro ⟨hactive, hexpiry, hpos, hperTx, hage, hcap, hlisted⟩
    rw [← windowAt_spentToday, ← windowAt_maxSpendPerDay vault now] at hcap
    obtain ⟨total, htotal, hle⟩ := exists_checkedAdd_le hcap
    refine ⟨hactive, trivial, by simpa using hexpiry, hpos, hperTx, _, _,
      ⟨hage, rfl⟩, total, htotal, hle, ?_, rfl⟩
    rw [windowAt_allowedPrograms]
    tauto

/-- The proxy forwards for the guardrails, up to these. -/
theorem Passes.accepts_iff {vault : VaultState} {amount : UInt64}
    {destAuthority destAddress : Pubkey} {now : Int64}
    (h : vault.Passes amount destAuthority now)
    (hstarted : vault.dayWindowStart ≤ now) :
    vault.Accepts amount destAuthority destAddress now ↔
      0 < amount ∧ (0 < vault.agentExpiresAt → now ≠ vault.agentExpiresAt) ∧
      now.toInt - vault.dayWindowStart.toInt < 2 ^ 63 := by
  rw [Int64.le_iff_toInt_le] at hstarted
  constructor
  · intro haccepts
    refine ⟨haccepts.amount_pos, ?_, haccepts.ageFits.2⟩
    intro hexpires heq
    have hlt := haccepts.notExpired hexpires
    rw [heq] at hlt
    exact Int64.lt_irrefl hlt
  · rintro ⟨hpos, hexpiry, hage⟩
    refine ⟨h.active, ?_, hpos, h.perTx, ⟨by omega, hage⟩, ?_, ?_⟩
    · intro hexpires
      exact Int64.lt_of_le_of_ne (h.notExpired hexpires).2 (hexpiry hexpires)
    · have hperDay := h.perDay
      unfold spentAt
      split
      · omega
      · exact hperDay
    · exact h.listed.imp_right Or.inl

/-- The proxy does not stand in the way of the guardrails, up to these. -/
theorem Accepts.passes_iff {vault : VaultState} {amount : UInt64}
    {destAuthority destAddress : Pubkey} {now : Int64}
    (h : vault.Accepts amount destAuthority destAddress now) :
    vault.Passes amount destAuthority now ↔
      (now.toInt - vault.dayWindowStart.toInt < 86_400 ∨
        vault.spentToday.toNat + amount.toNat ≤
          vault.maxSpendPerDay.toNat) ∧
      (vault.allowedPrograms = [] ∨
        destAuthority ∈ vault.allowedPrograms) ∧
      (0 < vault.agentExpiresAt → 0 ≤ now) := by
  constructor
  · intro hpasses
    exact ⟨Or.inr hpasses.perDay, hpasses.listed, fun hexpires =>
      (hpasses.notExpired hexpires).1⟩
  · rintro ⟨hwindow, hlisted, hepoch⟩
    refine ⟨h.active, ?_, h.perTx, ?_, hlisted⟩
    · intro hexpires
      exact ⟨hepoch hexpires, Int64.le_of_lt (h.notExpired hexpires)⟩
    · rcases hwindow with hopen | hperDay
      · have hperDay := h.perDay
        rwa [spentAt, if_neg (by omega)] at hperDay
      · exact hperDay

end VaultState

namespace VaultSample

/-- The sample vault when this much was spent of its first day. -/
def havingSpent (spent : UInt64) : VaultState where
  owner := owner
  agent := agent
  maxSpendPerTx := perTx
  maxSpendPerDay := perDay
  spentToday := spent
  dayWindowStart := noon
  agentExpiresAt := 0
  allowedPrograms := []
  isActive := true
  bump := 255
  reserved := .replicate 64 0

/-- The account of a vault, as the RPC node returns it. -/
def account (vault : VaultState) : List UInt8 :=
  List.replicate 8 0xBB ++ serialize vault ++ List.replicate 320 0

theorem account_holds (vault : VaultState) :
    Holds (account vault) VaultState.discriminatorLen (serialize vault) :=
  ⟨_, _, rfl, rfl⟩

/-- The authority of the token account of the shop. -/
theorem decodePubkey_shop : SolanaRpc.decodePubkey
    (SolanaRpc.encodePubkey (key 7)) = .ok (key 7) := by
  decide

/-- The pre-flight checks of such a vault, for a payment to the shop. -/
theorem shopPayment_iff (spent amount : UInt64) (now : Int64) :
    (∃ remaining, checkVault (account (havingSpent spent)) amount
      (some (SolanaRpc.encodePubkey (key 7))) (sinceEpoch now) =
        .ok remaining) ↔ (havingSpent spent).Passes amount (key 7) now :=
  checkVault_eq_ok_iff (account_holds _) (Nat.zero_le _) decodePubkey_shop

/-- A vault that has spent nothing, and one that has spent all of its day. -/
theorem havingSpent_runs :
    ((execTrail (Ledger.step chain) (Ledger.start noon tokens)
      [create]).map fun result => result.2.vault? vault) =
      some (some (havingSpent 0)) ∧
    ((execTrail (Ledger.step chain) (Ledger.start noon tokens)
      [create, fund, withdraw, withdraw]).map fun result =>
        result.2.vault? vault) = some (some (havingSpent perDay)) := by
  decide

end VaultSample

variable {solana : Solana} {start now : Int64} {tokens : TokenTable}
variable {ledger : Ledger} {steps : List (Taken Ledger LedgerAction)}
variable {address authority destAddress : Pubkey} {vault : VaultState}
variable {data : List UInt8} {amount : UInt64} {dest : String}

/-- For every vault of a run: what the pre-flight checks let pass, the
guardrails accept exactly when the amount is positive, it is not the very second
in which the agent expires, and the age of the window is an `i64`. -/
theorem accepted_of_preflight_iff {remaining : UInt64}
    (trail : Trail (Ledger.step solana) (Ledger.start start tokens) steps
      ledger)
    (hvault : ledger.vault? address = some vault)
    (hstarted : vault.dayWindowStart ≤ now)
    (hdata : Holds data VaultState.discriminatorLen (serialize vault))
    (hdest : SolanaRpc.decodePubkey dest = .ok authority)
    (hpasses : checkVault data amount (some dest) (sinceEpoch now) =
      .ok remaining) :
    (∃ vault', vault.guardedWithdraw vault.agent now amount authority
      destAddress = .ok vault') ↔
      0 < amount ∧ (0 < vault.agentExpiresAt → now ≠ vault.agentExpiresAt) ∧
      now.toInt - vault.dayWindowStart.toInt < 2 ^ 63 := by
  have hformed := (vault_wellKept trail hvault).1
  have hpassed := (checkVault_eq_ok_iff hdata hformed.fewPrograms hdest).mp
    ⟨remaining, hpasses⟩
  rw [VaultState.guardedWithdraw_accepts_iff]
  exact hpassed.accepts_iff hstarted

/-- A cent that is paid out of a new vault. -/
theorem accepted_of_preflight_sample : ∃ steps ledger,
    Trail (Ledger.step VaultSample.chain)
      (Ledger.start VaultSample.noon VaultSample.tokens) steps ledger ∧
    ledger.vault? VaultSample.vault = some (VaultSample.havingSpent 0) ∧
    ∃ vault', (VaultSample.havingSpent 0).guardedWithdraw VaultSample.agent
      (VaultSample.noon + 10) 10_000 (VaultSample.key 7)
      VaultSample.shopToken = .ok vault' := by
  obtain ⟨⟨steps, ledger⟩, hexec, hvault⟩ :=
    Option.map_eq_some_iff.mp VaultSample.havingSpent_runs.1
  have trail := trail_of_execTrail hexec
  obtain ⟨remaining, hpasses⟩ := (VaultSample.shopPayment_iff 0 10_000
    (VaultSample.noon + 10)).mpr
      ⟨rfl, by decide, by decide, by decide, Or.inl rfl⟩
  exact ⟨steps, ledger, trail, hvault, (accepted_of_preflight_iff trail hvault
    (by decide) (VaultSample.account_holds _) VaultSample.decodePubkey_shop
    hpasses).mpr ⟨by decide, by decide, by decide⟩⟩

/-- A payment of nothing passes, and the guardrails refuse it. -/
theorem not_accepted_of_preflight : ¬ ∀ solana start tokens steps ledger
    address vault now data amount dest authority destAddress remaining,
    Trail (Ledger.step solana) (Ledger.start start tokens) steps ledger →
    ledger.vault? address = some vault → vault.dayWindowStart ≤ now →
    Holds data VaultState.discriminatorLen (serialize vault) →
    SolanaRpc.decodePubkey dest = .ok authority →
    checkVault data amount (some dest) (sinceEpoch now) = .ok remaining →
    ∃ vault', vault.guardedWithdraw vault.agent now amount authority
      destAddress = .ok vault' := by
  intro h
  obtain ⟨⟨steps, ledger⟩, hexec, hvault⟩ :=
    Option.map_eq_some_iff.mp VaultSample.havingSpent_runs.1
  obtain ⟨remaining, hpasses⟩ := (VaultSample.shopPayment_iff 0 0
    VaultSample.noon).mpr ⟨rfl, by decide, by decide, by decide, Or.inl rfl⟩
  have haccepts := VaultState.guardedWithdraw_accepts_iff.mp
    (h _ _ _ _ _ _ _ _ _ _ _ _ VaultSample.shopToken _
      (trail_of_execTrail hexec) hvault (by decide)
      (VaultSample.account_holds _) VaultSample.decodePubkey_shop hpasses)
  exact absurd haccepts.amount_pos (by decide)

/-- For every vault of a run: what the guardrails accept, the pre-flight checks
let pass exactly when the window is still open or the stored counter leaves room
anyway, the authority itself is listed if anything is, and the clock is not
before the epoch if the agent expires. -/
theorem preflight_of_accepted_iff {vault' : VaultState}
    (trail : Trail (Ledger.step solana) (Ledger.start start tokens) steps
      ledger)
    (hvault : ledger.vault? address = some vault)
    (hdata : Holds data VaultState.discriminatorLen (serialize vault))
    (hdest : SolanaRpc.decodePubkey dest = .ok authority)
    (haccepts : vault.guardedWithdraw vault.agent now amount authority
      destAddress = .ok vault') :
    (∃ remaining, checkVault data amount (some dest) (sinceEpoch now) =
      .ok remaining) ↔
      (now.toInt - vault.dayWindowStart.toInt < 86_400 ∨
        vault.spentToday.toNat + amount.toNat ≤
          vault.maxSpendPerDay.toNat) ∧
      (vault.allowedPrograms = [] ∨ authority ∈ vault.allowedPrograms) ∧
      (0 < vault.agentExpiresAt → 0 ≤ now) := by
  have hformed := (vault_wellKept trail hvault).1
  rw [checkVault_eq_ok_iff hdata hformed.fewPrograms hdest]
  exact (VaultState.guardedWithdraw_accepts_iff.mp
    ⟨vault', haccepts⟩).passes_iff

/-- A cent that the agent takes out of a new vault. -/
theorem preflight_of_accepted_sample : ∃ steps ledger,
    Trail (Ledger.step VaultSample.chain)
      (Ledger.start VaultSample.noon VaultSample.tokens) steps ledger ∧
    ledger.vault? VaultSample.vault = some (VaultSample.havingSpent 0) ∧
    ∃ remaining, checkVault
      (VaultSample.account (VaultSample.havingSpent 0)) 10_000
      (some (SolanaRpc.encodePubkey (VaultSample.key 7)))
      (sinceEpoch (VaultSample.noon + 10)) = .ok remaining := by
  obtain ⟨⟨steps, ledger⟩, hexec, hvault⟩ :=
    Option.map_eq_some_iff.mp VaultSample.havingSpent_runs.1
  have trail := trail_of_execTrail hexec
  have haccepts : (VaultSample.havingSpent 0).Accepts 10_000
      (VaultSample.key 7) VaultSample.shopToken (VaultSample.noon + 10) :=
    ⟨rfl, by decide, by decide, by decide, ⟨by decide, by decide⟩, by decide,
      Or.inl rfl⟩
  obtain ⟨vault', hvault'⟩ :=
    VaultState.guardedWithdraw_accepts_iff.mpr haccepts
  exact ⟨steps, ledger, trail, hvault, (preflight_of_accepted_iff trail hvault
    (VaultSample.account_holds _) VaultSample.decodePubkey_shop hvault').mpr
      ⟨Or.inl (by decide), Or.inl rfl, by decide⟩⟩

/-- A vault that spent all of its day is free again a day later, and the proxy
still blocks it. -/
theorem not_preflight_of_accepted : ¬ ∀ solana start tokens steps ledger
    address vault now data amount dest authority destAddress vault',
    Trail (Ledger.step solana) (Ledger.start start tokens) steps ledger →
    ledger.vault? address = some vault → vault.dayWindowStart ≤ now →
    Holds data VaultState.discriminatorLen (serialize vault) →
    SolanaRpc.decodePubkey dest = .ok authority →
    vault.guardedWithdraw vault.agent now amount authority destAddress =
      .ok vault' →
    ∃ remaining, checkVault data amount (some dest) (sinceEpoch now) =
      .ok remaining := by
  intro h
  obtain ⟨⟨steps, ledger⟩, hexec, hvault⟩ :=
    Option.map_eq_some_iff.mp VaultSample.havingSpent_runs.2
  have haccepts : (VaultSample.havingSpent VaultSample.perDay).Accepts
      VaultSample.perTx (VaultSample.key 7) VaultSample.shopToken
      (VaultSample.noon + 86_400) :=
    ⟨rfl, by decide, by decide, by decide, ⟨by decide, by decide⟩, by decide,
      Or.inl rfl⟩
  obtain ⟨vault', hvault'⟩ :=
    VaultState.guardedWithdraw_accepts_iff.mpr haccepts
  have hpasses := (VaultSample.shopPayment_iff VaultSample.perDay
    VaultSample.perTx (VaultSample.noon + 86_400)).mp
    (h _ _ _ _ _ _ _ _ _ _ _ _ VaultSample.shopToken _
      (trail_of_execTrail hexec) hvault (by decide)
      (VaultSample.account_holds _) VaultSample.decodePubkey_shop hvault')
  exact absurd hpasses.perDay (by decide)

end X402Guard
