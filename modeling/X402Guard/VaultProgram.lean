/-
The vault program on its ledger: the accounts each instruction names, what is
checked of them before the handler runs, and the token transfers it makes.
Anyone may send any instruction; one that fails changes nothing.  The SPL Token
program is modelled as far as the program calls it, without frozen accounts;
address derivation and the mint accounts are parameters.
-/
import X402Guard.GuardedRun
import X402Guard.KeyedTable
import X402Guard.VaultState

namespace X402Guard

/-- An SPL token account; its `owner` is the authority over its tokens. -/
structure TokenAccount where
  address : Pubkey
  mint : Pubkey
  owner : Pubkey
  amount : UInt64
deriving DecidableEq

/-- A vault PDA and its state. -/
structure VaultAccount where
  address : Pubkey
  state : VaultState
deriving DecidableEq

inductive GuardEvent
  | withdrawExecuted (vault agent destination : Pubkey)
      (amount spentTodayAfter : UInt64) (timestamp : Int64)
  | agentRevoked (vault owner revokedAgent : Pubkey) (timestamp : Int64)
deriving DecidableEq

structure Ledger where
  /-- `Clock::get()?.unix_timestamp`. -/
  now : Int64
  vaults : KeyedTable VaultAccount VaultAccount.address
  tokens : KeyedTable TokenAccount TokenAccount.address
  /-- Every event the program has emitted. -/
  events : List GuardEvent

/-- No vault exists yet. -/
def Ledger.start (now : Int64)
    (tokens : KeyedTable TokenAccount TokenAccount.address) : Ledger :=
  ⟨now, .empty, tokens, []⟩

/-- What the program takes from the chain. -/
structure Solana where
  /-- `Pubkey::find_program_address(&[VAULT_SEED, owner])`. -/
  findVaultAddress : Pubkey → Pubkey × UInt8
  /-- `Pubkey::create_program_address(&[VAULT_SEED, owner, &[bump]])`. -/
  createVaultAddress : Pubkey → UInt8 → Option Pubkey
  /-- `get_associated_token_address`, of a wallet and a mint. -/
  associatedTokenAddress : Pubkey → Pubkey → Pubkey
  /-- Is there a mint account at the address? -/
  isMint : Pubkey → Bool

inductive TokenError
  | insufficientFunds
  | mintMismatch
  | ownerMismatch
  | nonNativeHasBalance
  | overflow
deriving DecidableEq, Repr

inductive ProgramError
  | guard (error : GuardError)
  | token (error : TokenError)
  | missingRequiredSignature
  | accountNotInitialized
  | accountAlreadyInUse
  | constraintSeeds
  | constraintAssociated
  | constraintRaw
deriving DecidableEq, Repr

/-! ### SPL Token -/

namespace TokenAccount

/-- `token::transfer`: exactly `amount` moves, for the authority over the
source. -/
def transfer (tokens : KeyedTable TokenAccount TokenAccount.address)
    (source destination authority : Pubkey) (amount : UInt64) :
    Except ProgramError (KeyedTable TokenAccount TokenAccount.address) := do
  let payer ← okOr .accountNotInitialized (tokens.find? source)
  let payee ← okOr .accountNotInitialized (tokens.find? destination)
  rejectIf (payer.amount < amount) (.token .insufficientFunds)
  rejectIf (payer.mint ≠ payee.mint) (.token .mintMismatch)
  rejectIf (payer.owner ≠ authority) (.token .ownerMismatch)
  if source = destination then return tokens
  else
    let received ← okOr (.token .overflow) (checkedAdd payee.amount amount)
    return (tokens.replace { payer with amount := payer.amount - amount }).replace
      { payee with amount := received }

/-- `token::close_account`: only an empty account can be closed. -/
def closeAccount (tokens : KeyedTable TokenAccount TokenAccount.address)
    (account authority : Pubkey) :
    Except ProgramError (KeyedTable TokenAccount TokenAccount.address) := do
  let closed ← okOr .accountNotInitialized (tokens.find? account)
  rejectIf (closed.amount ≠ 0) (.token .nonNativeHasBalance)
  rejectIf (closed.owner ≠ authority) (.token .ownerMismatch)
  return tokens.erase account

end TokenAccount

/-! ### Instructions -/

structure InitializeVault where
  owner : Pubkey
  vault : Pubkey
  vaultTokenAccount : Pubkey
  usdcMint : Pubkey
deriving DecidableEq

structure Deposit where
  depositor : Pubkey
  vault : Pubkey
  depositorTokenAccount : Pubkey
  vaultTokenAccount : Pubkey
  usdcMint : Pubkey
deriving DecidableEq

structure GuardedWithdraw where
  agent : Pubkey
  vault : Pubkey
  vaultTokenAccount : Pubkey
  destinationTokenAccount : Pubkey
  usdcMint : Pubkey
deriving DecidableEq

structure UpdateRules where
  owner : Pubkey
  vault : Pubkey
deriving DecidableEq

structure RevokeAgent where
  owner : Pubkey
  vault : Pubkey
deriving DecidableEq

structure CloseVault where
  owner : Pubkey
  vault : Pubkey
  vaultTokenAccount : Pubkey
  ownerTokenAccount : Pubkey
  usdcMint : Pubkey
deriving DecidableEq

inductive Instruction
  | initializeVault (accounts : InitializeVault)
      (params : InitializeVaultParams)
  | deposit (accounts : Deposit) (amount : UInt64)
  | guardedWithdraw (accounts : GuardedWithdraw) (amount : UInt64)
  | updateRules (accounts : UpdateRules) (params : UpdateRulesParams)
  | revokeAgent (accounts : RevokeAgent)
  | closeVault (accounts : CloseVault)
deriving DecidableEq

/-- The error of a handler is one of the program's. -/
def guarded {α : Type} (result : Except GuardError α) :
    Except ProgramError α :=
  result.mapError .guard

/-- `Signer<'info>`. -/
def requireSigner (signers : List Pubkey) (key : Pubkey) :
    Except ProgramError Unit :=
  rejectIf (key ∉ signers) .missingRequiredSignature

namespace Ledger

variable (solana : Solana) (ledger : Ledger)

/-- `Account<'info, VaultState>` with the seeds of the vault's owner. -/
def loadVault (address : Pubkey) : Except ProgramError VaultState := do
  let account ← okOr .accountNotInitialized (ledger.vaults.find? address)
  rejectIf (solana.createVaultAddress account.state.owner
    account.state.bump ≠ some address) .constraintSeeds
  return account.state

/-- A vault whose `owner` field is the given account: `has_one = owner`. -/
def loadOwnVault (address owner : Pubkey) :
    Except ProgramError VaultState := do
  let vault ← ledger.loadVault solana address
  rejectIf (vault.owner ≠ owner) (.guard .unauthorized)
  return vault

/-- `Account<'info, TokenAccount>` of the mint. -/
def loadToken (address mint : Pubkey) : Except ProgramError TokenAccount := do
  let account ← okOr .accountNotInitialized (ledger.tokens.find? address)
  rejectIf (account.mint ≠ mint) .constraintRaw
  return account

/-- A token account of the mint over which `owner` has the authority. -/
def loadTokenOf (address mint owner : Pubkey) :
    Except ProgramError TokenAccount := do
  let account ← ledger.loadToken address mint
  rejectIf (account.owner ≠ owner) .constraintRaw
  return account

/-- `Account<'info, Mint>`. -/
def loadMint (mint : Pubkey) : Except ProgramError Unit :=
  rejectIf (solana.isMint mint = false) .accountNotInitialized

def initializeVault (signers : List Pubkey) (accounts : InitializeVault)
    (params : InitializeVaultParams) : Except ProgramError Ledger := do
  requireSigner signers accounts.owner
  let (address, bump) := solana.findVaultAddress accounts.owner
  rejectIf (accounts.vault ≠ address) .constraintSeeds
  rejectIf (accounts.vaultTokenAccount ≠
    solana.associatedTokenAddress accounts.vault accounts.usdcMint)
    .constraintAssociated
  loadMint solana accounts.usdcMint
  guarded (checkUsdcMint accounts.usdcMint)
  let state ← guarded
    (VaultState.initializeVault params accounts.owner bump ledger.now)
  let vault : VaultAccount := ⟨accounts.vault, state⟩
  let token : TokenAccount :=
    ⟨accounts.vaultTokenAccount, accounts.usdcMint, accounts.vault, 0⟩
  -- both accounts are created
  if hvault : ¬ ledger.vaults.HasKey vault.address then
    if htoken : ¬ ledger.tokens.HasKey token.address then
      return { ledger with
        vaults := ledger.vaults.insert vault hvault
        tokens := ledger.tokens.insert token htoken }
    else .error .accountAlreadyInUse
  else .error .accountAlreadyInUse

def deposit (signers : List Pubkey) (accounts : Deposit) (amount : UInt64) :
    Except ProgramError Ledger := do
  requireSigner signers accounts.depositor
  let _ ← ledger.loadVault solana accounts.vault
  let _ ← ledger.loadTokenOf accounts.depositorTokenAccount accounts.usdcMint
    accounts.depositor
  let _ ← ledger.loadTokenOf accounts.vaultTokenAccount accounts.usdcMint
    accounts.vault
  -- any mint: only the two token accounts have to agree on it
  loadMint solana accounts.usdcMint
  rejectIf (¬ amount > 0) (.guard .zeroAmount)
  let tokens ← TokenAccount.transfer ledger.tokens
    accounts.depositorTokenAccount accounts.vaultTokenAccount
    accounts.depositor amount
  return { ledger with tokens }

def guardedWithdraw (signers : List Pubkey) (accounts : GuardedWithdraw)
    (amount : UInt64) : Except ProgramError Ledger := do
  requireSigner signers accounts.agent
  let vault ← ledger.loadVault solana accounts.vault
  let _ ← ledger.loadTokenOf accounts.vaultTokenAccount accounts.usdcMint
    accounts.vault
  let destination ← ledger.loadToken accounts.destinationTokenAccount
    accounts.usdcMint
  loadMint solana accounts.usdcMint
  guarded (checkUsdcMint accounts.usdcMint)
  let state ← guarded (vault.guardedWithdraw accounts.agent ledger.now amount
    destination.owner destination.address)
  -- the vault signs with its seeds
  let tokens ← TokenAccount.transfer ledger.tokens accounts.vaultTokenAccount
    accounts.destinationTokenAccount accounts.vault amount
  return { ledger with
    vaults := ledger.vaults.replace ⟨accounts.vault, state⟩
    tokens
    events := ledger.events ++ [.withdrawExecuted accounts.vault accounts.agent
      accounts.destinationTokenAccount amount state.spentToday ledger.now] }

def updateRules (signers : List Pubkey) (accounts : UpdateRules)
    (params : UpdateRulesParams) : Except ProgramError Ledger := do
  requireSigner signers accounts.owner
  let vault ← ledger.loadOwnVault solana accounts.vault accounts.owner
  let state ← guarded (vault.updateRules params)
  return { ledger with
    vaults := ledger.vaults.replace ⟨accounts.vault, state⟩ }

def revokeAgent (signers : List Pubkey) (accounts : RevokeAgent) :
    Except ProgramError Ledger := do
  requireSigner signers accounts.owner
  let vault ← ledger.loadOwnVault solana accounts.vault accounts.owner
  return { ledger with
    vaults := ledger.vaults.replace ⟨accounts.vault, vault.revokeAgent⟩
    events := ledger.events ++ [.agentRevoked accounts.vault accounts.owner
      vault.agent ledger.now] }

def closeVault (signers : List Pubkey) (accounts : CloseVault) :
    Except ProgramError Ledger := do
  requireSigner signers accounts.owner
  let _ ← ledger.loadOwnVault solana accounts.vault accounts.owner
  let vaultToken ← ledger.loadTokenOf accounts.vaultTokenAccount
    accounts.usdcMint accounts.vault
  let _ ← ledger.loadTokenOf accounts.ownerTokenAccount accounts.usdcMint
    accounts.owner
  loadMint solana accounts.usdcMint
  let drained ←
    if vaultToken.amount > 0 then
      TokenAccount.transfer ledger.tokens accounts.vaultTokenAccount
        accounts.ownerTokenAccount accounts.vault vaultToken.amount
    else .ok ledger.tokens
  let tokens ← TokenAccount.closeAccount drained accounts.vaultTokenAccount
    accounts.vault
  return { ledger with
    vaults := ledger.vaults.erase accounts.vault
    tokens }

/-- The entrypoint of the program. -/
def process (signers : List Pubkey) : Instruction → Except ProgramError Ledger
  | .initializeVault accounts params =>
      ledger.initializeVault solana signers accounts params
  | .deposit accounts amount => ledger.deposit solana signers accounts amount
  | .guardedWithdraw accounts amount =>
      ledger.guardedWithdraw solana signers accounts amount
  | .updateRules accounts params =>
      ledger.updateRules solana signers accounts params
  | .revokeAgent accounts => ledger.revokeAgent solana signers accounts
  | .closeVault accounts => ledger.closeVault solana signers accounts

end Ledger

/-- What can happen next: the clock moves on, or a transaction succeeds. -/
inductive LedgerAction
  | tick (later : Int64)
  | transact (signers : List Pubkey) (instruction : Instruction)
deriving DecidableEq

def Ledger.step (solana : Solana) (ledger : Ledger) :
    LedgerAction → Option Ledger
  | .tick later =>
      if ledger.now ≤ later then some { ledger with now := later } else none
  | .transact signers instruction =>
      (ledger.process solana signers instruction).toOption

/-! ### A sample vault -/

namespace VaultSample

/-- A key that is one byte over and over. -/
def key (byte : UInt8) : Pubkey := ⟨List.replicate 32 byte, rfl⟩

def owner : Pubkey := key 1
def agent : Pubkey := key 2
def vault : Pubkey := key 3
def vaultToken : Pubkey := key 4
def ownerToken : Pubkey := key 5
def shopToken : Pubkey := key 6

def chain : Solana where
  findVaultAddress := fun _ => (vault, 255)
  createVaultAddress := fun seed bump =>
    if seed = owner ∧ bump = 255 then some vault else none
  associatedTokenAddress := fun _ _ => vaultToken
  isMint := fun mint => mint = usdcMintDevnet

def tokens : KeyedTable TokenAccount TokenAccount.address :=
  (KeyedTable.empty.insert
      ⟨ownerToken, usdcMintDevnet, owner, 1_000_000_000⟩ (by decide)).insert
    ⟨shopToken, usdcMintDevnet, key 7, 0⟩ (by decide)

/-- 200 USDC. -/
def perDay : UInt64 := 200_000_000

/-- 100 USDC. -/
def perTx : UInt64 := 100_000_000

def noon : Int64 := 1_750_000_000

def create : LedgerAction :=
  .transact [owner]
    (.initializeVault ⟨owner, vault, vaultToken, usdcMintDevnet⟩
      ⟨agent, perTx, perDay, 0, []⟩)

def fund : LedgerAction :=
  .transact [owner]
    (.deposit ⟨owner, vault, ownerToken, vaultToken, usdcMintDevnet⟩
      1_000_000_000)

def withdraw : LedgerAction :=
  .transact [agent]
    (.guardedWithdraw ⟨agent, vault, vaultToken, shopToken, usdcMintDevnet⟩
      perTx)

end VaultSample

end X402Guard
