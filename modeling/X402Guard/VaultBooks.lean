/-
The books of the vaults.  Every transfer of the program is a movement from one
authority to another that can be read off the transaction and the accounts it
names; over a run the movements account for every balance, and the events that
the program emits for all that was withdrawn.
-/
import X402Guard.VaultClosing
import X402Guard.RollingCap

namespace X402Guard

open Interaction TokenAccount

inductive Purpose
  | deposit
  | withdrawal
  | closing
deriving DecidableEq

/-- Tokens of a mint that pass from one authority to another. -/
structure Movement where
  purpose : Purpose
  mint : Pubkey
  payer : Pubkey
  payee : Pubkey
  amount : ℕ
deriving DecidableEq

namespace Movement

/-- What the movements that are counted amount to. -/
def amountOf (counted : Movement → Bool) (movements : List Movement) : ℕ :=
  (movements.map fun movement =>
    if counted movement then movement.amount else 0).sum

variable {counted : Movement → Bool}

theorem amountOf_append (first second : List Movement) :
    amountOf counted (first ++ second) =
      amountOf counted first + amountOf counted second := by
  simp [amountOf]

theorem amountOf_singleton (movement : Movement) :
    amountOf counted [movement] =
      if counted movement then movement.amount else 0 :=
  Nat.add_zero _

/-- Movements that are counted for one of two reasons. -/
theorem amountOf_split {first second : Movement → Bool}
    {movements : List Movement}
    (h : ∀ movement ∈ movements,
      counted movement = (first movement || second movement) ∧
        (first movement && second movement) = false) :
    amountOf counted movements =
      amountOf first movements + amountOf second movements := by
  unfold amountOf
  rw [← List.sum_map_add]
  congr 1
  apply List.map_congr_left
  intro movement hmovement
  obtain ⟨heither, hnotBoth⟩ := h movement hmovement
  rw [heither]
  cases hfirst : first movement <;> cases hsecond : second movement <;>
    simp_all

/-- Paid by an account that is counted. -/
def paidBy (p : Pubkey → Pubkey → Bool) (movement : Movement) : Bool :=
  p movement.mint movement.payer

/-- Paid to an account that is counted. -/
def paidTo (p : Pubkey → Pubkey → Bool) (movement : Movement) : Bool :=
  p movement.mint movement.payee

end Movement

open Movement (amountOf amountOf_append amountOf_singleton amountOf_split paidBy
  paidTo)

namespace Ledger

/-- The transfer that the instruction makes, if any. -/
def movement? (ledger : Ledger) : Instruction → Option Movement
  | .deposit accounts amount =>
      some ⟨.deposit, accounts.usdcMint, accounts.depositor, accounts.vault,
        amount.toNat⟩
  | .guardedWithdraw accounts amount =>
      (ledger.tokens.find? accounts.destinationTokenAccount).map
        fun destination => ⟨.withdrawal, accounts.usdcMint, accounts.vault,
          destination.owner, amount.toNat⟩
  | .closeVault accounts =>
      some ⟨.closing, accounts.usdcMint, accounts.vault, accounts.owner,
        ledger.balance accounts.vaultTokenAccount⟩
  | _ => none

end Ledger

/-- What the step transfers. -/
def movementsOf (step : Taken Ledger LedgerAction) : List Movement :=
  match step.action with
  | .tick _ => []
  | .transact _ instruction => (step.before.movement? instruction).toList

/-- The accounts that are counted hold what they held, less what they paid and
plus what was paid to them. -/
def Balanced (p : Pubkey → Pubkey → Bool) (before after : TokenTable)
    (movements : List Movement) : Prop :=
  totalOf after p + amountOf (paidBy p) movements =
    totalOf before p + amountOf (paidTo p) movements

namespace Ledger

variable {solana : Solana} {ledger ledger' : Ledger}
variable {p : Pubkey → Pubkey → Bool}

theorem balanced_of_transferred {tokens : TokenTable}
    {payer payee : TokenAccount} {authority : Pubkey} {amount : UInt64}
    {movement : Movement}
    (h : Transferred ledger.tokens tokens payer payee authority amount)
    (hmint : payer.mint = movement.mint) (hpayer : payer.owner = movement.payer)
    (hpayee : payee.owner = movement.payee)
    (hamount : amount.toNat = movement.amount) :
    Balanced p ledger.tokens tokens [movement] := by
  have htotal := h.totalOf p
  rw [← h.mint_eq, hmint, hpayer, hpayee, hamount] at htotal
  rw [Balanced, amountOf_singleton, amountOf_singleton]
  exact htotal

theorem deposit_balanced {signers : List Pubkey} {accounts : Deposit}
    {amount : UInt64}
    (h : ledger.deposit solana signers accounts amount = .ok ledger') :
    Balanced p ledger.tokens ledger'.tokens
      (ledger.movement? (.deposit accounts amount)).toList := by
  simp only [deposit, requireSigner, except_bind_eq_ok, rejectIf_eq_ok_iff,
    not_not, exists_const] at h
  obtain ⟨_, _, _, source, hsource, target, htarget, _, _, _, tokens, hmoved,
    h⟩ := h
  cases h
  obtain ⟨payer, payee, hfrom, hto, hmoved⟩ := transfer_eq_ok hmoved
  obtain ⟨hsource', hmint, howner, hfound⟩ := loadTokenOf_eq_ok hsource
  obtain ⟨htarget', _, hvault, hfound'⟩ := loadTokenOf_eq_ok htarget
  obtain rfl := payer_eq hmoved hfound (hfrom.trans hsource'.symm)
  obtain rfl := payee_eq hmoved hfound' (hto.trans htarget'.symm)
  exact balanced_of_transferred hmoved hmint howner hvault rfl

theorem guardedWithdraw_balanced {signers : List Pubkey}
    {accounts : GuardedWithdraw} {amount : UInt64}
    (h : ledger.guardedWithdraw solana signers accounts amount =
      .ok ledger') :
    Balanced p ledger.tokens ledger'.tokens
      (ledger.movement? (.guardedWithdraw accounts amount)).toList := by
  have hmove := guardedWithdraw_tokenMove h
  generalize ledger'.tokens = tokens at hmove
  cases hmove with
  | @withdrew _ _ _ payer payee _ _ _ _ _ hto hmint _ hmoved =>
      rw [movement?, ← hto, hmoved.payee_found]
      exact balanced_of_transferred hmoved hmint hmoved.authorized rfl rfl

theorem closeVault_balanced {signers : List Pubkey} {accounts : CloseVault}
    (h : ledger.closeVault solana signers accounts = .ok ledger') :
    Balanced p ledger.tokens ledger'.tokens
      (ledger.movement? (.closeVault accounts)).toList := by
  have hmove := closeVault_tokenMove h
  generalize ledger'.tokens = tokens at hmove
  cases hmove with
  | @closed _ _ payer payee emptied drained _ _ _ hfrom _ hmint hpayer _
      hauthority hreceiver hdrained hemptied hempty =>
      have herased := KeyedTable.sumOf_erase (held p) hemptied
      rw [held, hempty] at herased
      simp only [UInt64.toNat_zero, ite_self, Nat.add_zero] at herased
      have htotal : totalOf (drained.erase payer.address) p =
          totalOf drained p := herased
      have hbalance : ledger.balance accounts.vaultTokenAccount =
          payer.amount.toNat := by
        rw [← hfrom]
        exact balance_eq hpayer
      rw [Balanced, htotal]
      rcases hdrained with ⟨_, hmoved⟩ | ⟨hzero, rfl⟩
      · exact balanced_of_transferred hmoved hmint hauthority hreceiver
          hbalance.symm
      · -- there was nothing to drain
        rw [movement?, hbalance, hzero, Option.toList_some,
          amountOf_singleton, amountOf_singleton]
        simp

/-- Every instruction moves what its movement accounts for. -/
theorem process_balanced {signers : List Pubkey} {instruction : Instruction}
    (h : ledger.process solana signers instruction = .ok ledger') :
    Balanced p ledger.tokens ledger'.tokens
      (ledger.movement? instruction).toList := by
  cases instruction with
  | deposit accounts amount => exact deposit_balanced h
  | guardedWithdraw accounts amount => exact guardedWithdraw_balanced h
  | closeVault accounts => exact closeVault_balanced h
  | initializeVault accounts params =>
      have hmove := process_tokenMove h
      generalize ledger'.tokens = tokens at hmove
      cases hmove with
      | opened hempty hnew =>
          rw [Balanced, totalOf, KeyedTable.sumOf_insert, held, hempty]
          simp [totalOf, movement?, amountOf]
  | updateRules accounts params =>
      have hmove := process_tokenMove h
      generalize ledger'.tokens = tokens at hmove
      cases hmove
      rfl
  | revokeAgent accounts =>
      have hmove := process_tokenMove h
      generalize ledger'.tokens = tokens at hmove
      cases hmove
      rfl

/-- A withdrawal from the vault. -/
def withdrawnFrom (address : Pubkey) (movement : Movement) : Bool :=
  decide (movement.purpose = .withdrawal ∧ movement.payer = address)

/-- What the events report of a vault grows by what is withdrawn from it. -/
theorem process_reported {signers : List Pubkey} {instruction : Instruction}
    (h : ledger.process solana signers instruction = .ok ledger')
    (address : Pubkey) :
    ((ledger'.withdrawals address).map Withdrawal.moved).sum =
      ((ledger.withdrawals address).map Withdrawal.moved).sum +
        amountOf (withdrawnFrom address)
          (ledger.movement? instruction).toList := by
  obtain ⟨_, moved, hchange, hmoved⟩ := process_changes h address
  rw [hmoved, List.map_append, List.sum_append, Nat.add_left_cancel_iff]
  generalize ledger.vault? address = before at hchange
  generalize ledger'.vault? address = after at hchange
  cases hchange with
  | untouched hother =>
      cases instruction with
      | guardedWithdraw accounts amount =>
          have hne : accounts.vault ≠ address := by
            simpa [Instruction.target] using hother
          cases hfound : ledger.tokens.find?
              accounts.destinationTokenAccount with
          | none => simp [movement?, hfound, amountOf]
          | some => simp [movement?, hfound, amountOf, withdrawnFrom, hne]
      | _ => simp [movement?, amountOf, withdrawnFrom]
  | @withdrew accounts amount _ _ _ _ haddress _ _ =>
      have hmove := guardedWithdraw_tokenMove h
      generalize ledger'.tokens = tokens at hmove
      cases hmove with
      | withdrew _ _ _ _ hto _ _ hpaid =>
          have hfound := hpaid.payee_found
          rw [hto] at hfound
          simp [movement?, hfound, amountOf, withdrawnFrom, haddress,
            Withdrawal.moved]
  | _ => simp [movement?, amountOf, withdrawnFrom]

end Ledger

section Runs

variable {solana : Solana} {now : Int64} {tokens : TokenTable}
variable {steps : List (Taken Ledger LedgerAction)} {ledger : Ledger}

/-- Over a run the movements account for what any accounts hold. -/
theorem books_balance {p : Pubkey → Pubkey → Bool}
    (trail : Trail (Ledger.step solana) (Ledger.start now tokens) steps
      ledger) :
    Balanced p tokens ledger.tokens (steps.flatMap movementsOf) := by
  induction trail with
  | nil => rfl
  | @snoc before after steps action trail taken ih =>
      have hstep : Balanced p before.tokens after.tokens
          (movementsOf ⟨before, action, after⟩) := by
        rcases Ledger.step_transact taken with
          ⟨later, rfl, _, rfl⟩ | ⟨signers, instruction, rfl, hprocess⟩
        · rfl
        · exact Ledger.process_balanced hprocess
      unfold Balanced at ih hstep ⊢
      rw [List.flatMap_append, List.flatMap_singleton, amountOf_append,
        amountOf_append]
      omega

/-- The events report all that was withdrawn from a vault. -/
theorem reported_eq (address : Pubkey)
    (trail : Trail (Ledger.step solana) (Ledger.start now tokens) steps
      ledger) :
    ((ledger.withdrawals address).map Withdrawal.moved).sum =
      amountOf (Ledger.withdrawnFrom address)
        (steps.flatMap movementsOf) := by
  induction trail with
  | nil => rfl
  | @snoc before after steps action trail taken ih =>
      rw [List.flatMap_append, List.flatMap_singleton, amountOf_append, ← ih]
      rcases Ledger.step_transact taken with
        ⟨later, rfl, _, rfl⟩ | ⟨signers, instruction, rfl, hprocess⟩
      · rfl
      · exact Ledger.process_reported hprocess address

/-- What the program asks of a movement. -/
def Movement.Sound (solana : Solana) (movement : Movement) : Prop :=
  match movement.purpose with
  | .deposit => ¬ solana.IsVaultAddress movement.payer
  | .withdrawal => IsUsdcMint movement.mint
  | .closing => ¬ solana.IsVaultAddress movement.payee

/-- Depositors and owners sign with keys, and agents withdraw only USDC. -/
theorem movements_sound
    (trail : Trail (Ledger.step solana) (Ledger.start now tokens) steps ledger)
    (hsigned : ∀ step ∈ steps, solana.SignedByKeys step.action) :
    ∀ movement ∈ steps.flatMap movementsOf, movement.Sound solana := by
  intro movement hmovement
  obtain ⟨step, hstep, hmovement⟩ := List.mem_flatMap.mp hmovement
  have hsound := trail.forall_taken
    (P := fun step => solana.SignedByKeys step.action →
      ∀ movement ∈ movementsOf step, movement.Sound solana) ?_
  · exact hsound step hstep (hsigned step hstep) movement hmovement
  · intro before action after htaken hkeys movement hmovement
    cases action with
    | tick => cases hmovement
    | transact signers instruction =>
        have hmove := Ledger.process_tokenMove (Ledger.process_of_step htaken)
        have hfound := Option.mem_toList.mp hmovement
        generalize after.tokens = tokens at hmove
        cases hmove with
        | deposited hdepositor _ _ _ =>
            cases hfound
            exact hkeys _ hdepositor
        | withdrew _ _ _ _ _ _ husdc _ =>
            obtain ⟨destination, _, rfl⟩ := Option.map_eq_some_iff.mp hfound
            exact isUsdcMint_of_checkUsdcMint husdc
        | closed howner _ _ _ _ _ _ _ _ _ _ _ _ =>
            cases hfound
            exact hkeys _ howner
        | _ => cases hfound

/-- Returned to the owner when the vault is closed, in USDC. -/
def returnedFrom (address : Pubkey) (movement : Movement) : Bool :=
  decide (movement.purpose = .closing ∧ movement.payer = address ∧
    IsUsdcMint movement.mint)

/-- Deposited into the vault, in USDC. -/
def depositedTo (address : Pubkey) (movement : Movement) : Bool :=
  decide (movement.purpose = .deposit ∧ movement.payee = address ∧
    IsUsdcMint movement.mint)

/-- Withdrawn by an agent, of this vault or another, into an account of the
vault. -/
def withdrawnTo (address : Pubkey) (movement : Movement) : Bool :=
  decide (movement.purpose = .withdrawal ∧ movement.payee = address)

variable {address : Pubkey} {movement : Movement}

/-- USDC leaves a vault with its agent or when it is closed. -/
theorem Movement.Sound.paidBy (h : movement.Sound solana)
    (hvault : solana.IsVaultAddress address) :
    movement.paidBy (usdcFor address) =
        (Ledger.withdrawnFrom address movement ||
          returnedFrom address movement) ∧
      (Ledger.withdrawnFrom address movement &&
        returnedFrom address movement) = false := by
  obtain ⟨purpose, mint, payer, payee, amount⟩ := movement
  cases purpose with
  | deposit =>
      have hne : payer ≠ address := fun heq => h (heq ▸ hvault)
      simp [Movement.paidBy, usdcFor, Ledger.withdrawnFrom, returnedFrom, hne]
  | withdrawal =>
      have husdc : IsUsdcMint mint := h
      simp [Movement.paidBy, usdcFor, Ledger.withdrawnFrom, returnedFrom,
        husdc]
  | closing =>
      simp [Movement.paidBy, usdcFor, Ledger.withdrawnFrom, returnedFrom,
        and_comm]

/-- USDC comes into a vault with a deposit or an agent. -/
theorem Movement.Sound.paidTo (h : movement.Sound solana)
    (hvault : solana.IsVaultAddress address) :
    movement.paidTo (usdcFor address) =
        (depositedTo address movement || withdrawnTo address movement) ∧
      (depositedTo address movement && withdrawnTo address movement) =
        false := by
  obtain ⟨purpose, mint, payer, payee, amount⟩ := movement
  cases purpose with
  | deposit =>
      simp [Movement.paidTo, usdcFor, depositedTo, withdrawnTo, and_comm]
  | withdrawal =>
      have husdc : IsUsdcMint mint := h
      simp [Movement.paidTo, usdcFor, depositedTo, withdrawnTo, husdc]
  | closing =>
      have hne : payee ≠ address := fun heq => h (heq ▸ hvault)
      simp [Movement.paidTo, usdcFor, depositedTo, withdrawnTo, hne]

/-- In every run, whoever sent whatever, the USDC of a vault, what its events
report as withdrawn and what closings returned to its owner add up to what it
held at the start, was deposited into it and was withdrawn to it. -/
theorem vault_books_balance
    (trail : Trail (Ledger.step solana) (Ledger.start now tokens) steps ledger)
    (hsigned : ∀ step ∈ steps, solana.SignedByKeys step.action)
    (hvault : solana.IsVaultAddress address) :
    ledger.usdcOf address +
        ((ledger.withdrawals address).map Withdrawal.moved).sum +
        amountOf (returnedFrom address) (steps.flatMap movementsOf) =
      totalOf tokens (usdcFor address) +
        amountOf (depositedTo address) (steps.flatMap movementsOf) +
        amountOf (withdrawnTo address) (steps.flatMap movementsOf) := by
  have hsound := movements_sound trail hsigned
  have hpaid := amountOf_split fun movement hmovement =>
    (hsound movement hmovement).paidBy hvault
  have hreceived := amountOf_split fun movement hmovement =>
    (hsound movement hmovement).paidTo hvault
  have hbalance : Balanced (usdcFor address) tokens ledger.tokens _ :=
    books_balance trail
  rw [Balanced, hpaid, hreceived, ← reported_eq address trail] at hbalance
  rw [Ledger.usdcOf, Nat.add_assoc, Nat.add_assoc]
  exact hbalance

end Runs

/-- A vault is funded, pays its shop, and is closed. -/
theorem vault_books_balance_sample : ∃ steps ledger,
    Trail (Ledger.step VaultSample.chain)
      (Ledger.start VaultSample.noon VaultSample.tokens) steps ledger ∧
    ledger.usdcOf VaultSample.vault = 0 ∧
    ((ledger.withdrawals VaultSample.vault).map Withdrawal.moved).sum =
      100_000_000 ∧
    0 + 100_000_000 + amountOf (returnedFrom VaultSample.vault)
        (steps.flatMap movementsOf) =
      totalOf VaultSample.tokens (usdcFor VaultSample.vault) +
        amountOf (depositedTo VaultSample.vault)
          (steps.flatMap movementsOf) +
        amountOf (withdrawnTo VaultSample.vault)
          (steps.flatMap movementsOf) := by
  have hrun : (execTrail (Ledger.step VaultSample.chain)
      (Ledger.start VaultSample.noon VaultSample.tokens)
      [VaultSample.create, VaultSample.fund, VaultSample.withdraw,
        VaultSample.close]).map (fun result =>
        (result.2.usdcOf VaultSample.vault,
          ((result.2.withdrawals VaultSample.vault).map
            Withdrawal.moved).sum)) = some (0, 100_000_000) := by
    decide
  obtain ⟨⟨steps, ledger⟩, hexec, hseen⟩ := Option.map_eq_some_iff.mp hrun
  obtain ⟨hheld, hreported⟩ := Prod.mk.inj hseen
  have trail := trail_of_execTrail hexec
  have hbalance := vault_books_balance trail
    (VaultSample.signedByKeys hexec (by decide))
    ⟨VaultSample.owner, 255, rfl⟩
  rw [hheld, hreported] at hbalance
  exact ⟨steps, ledger, trail, hheld, hreported, hbalance⟩

end X402Guard
