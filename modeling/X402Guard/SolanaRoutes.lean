/-
The Solana routes of the proxy as they run: how the address of a vault is
derived, how the replies of an RPC node are read, `forward_solana_request` and
`get_vault_status`.  The proxy signs nothing; it asks, checks, reports and
forwards.
-/
import X402Guard.Base58
import X402Guard.SolanaPreflight
import X402Guard.ProxyEnvironment

namespace X402Guard

open Interaction

/-- What the Solana routes await or share. -/
inductive SolanaOp
  /-- `SystemTime::now`. -/
  | clock
  | emit (event : AuditEvent)
  /-- POST a JSON-RPC request to a node. -/
  | rpcPost (url : String) (request : Value)
  | httpGet (url payment : String)

/-- How far `reqwest` follows redirects when it is not told otherwise. -/
def maxRedirects : ℕ := 10

/-- What becomes of a request that goes where it is redirected, with all its
headers: the URLs after the first, and the last reply. -/
structure Followed where
  redirects : List String
  redirects_le : redirects.length ≤ maxRedirects
  reply : HttpReply

/-- The clock is read in whole seconds since the epoch, if it is not before. -/
@[reducible] def SolanaReply : SolanaOp → Type
  | .clock => Option ℕ
  | .emit _ => Bool
  | .rpcPost .. => HttpReply
  | .httpGet .. => Followed

/-- Third-party code behind the Solana routes. -/
structure SolanaExternals extends Externals where
  /-- `Sha256`, of all that the hasher was updated with. -/
  sha256 : List UInt8 → Pubkey
  /-- `CompressedEdwardsY::decompress`: is it a point of the curve? -/
  isOnEd25519Curve : Pubkey → Bool
  /-- `base64::engine::general_purpose::STANDARD.decode`. -/
  decodeBase64 : String → Option (List UInt8)

namespace SolanaRpc

variable (ext : SolanaExternals)

def sha256PdaSeeds (seeds : List (List UInt8)) (programId : Pubkey) : Pubkey :=
  ext.sha256 (seeds.flatten ++ programId.bytes ++
    utf8Bytes "ProgramDerivedAddress")

/-- The bumps in the order they are tried, from 255 down to 0. -/
def bumps : List UInt8 := (List.range 256).reverse.map UInt8.ofNat

/-- The first bump whose hash is not on the curve, with that hash. -/
def findOffCurve (hash : UInt8 → Pubkey) : Option (Pubkey × UInt8) :=
  bumps.findSome? fun bump =>
    if ext.isOnEd25519Curve (hash bump) then none else some (hash bump, bump)

/-- The vault PDA of an owner; its seeds are `["vault", owner]`. -/
def deriveVaultPda (owner programId : Pubkey) :
    Except String (Pubkey × UInt8) :=
  okOr "failed to derive vault PDA — no valid bump found" <|
    findOffCurve ext fun bump =>
      sha256PdaSeeds ext [utf8Bytes "vault", owner.bytes, [bump]] programId

/-- The Associated Token Account of a wallet for a mint. -/
def deriveAta (wallet mint : Pubkey) : Except String Pubkey := do
  let tokenProgram ← decodePubkey "TokenkegQfeZyiNwAJbNbGKPFXCWuBvf9Ss623VQ5DA"
  let ataProgram ← decodePubkey "ATokenGPvbdGVxr1b2hvZbsiqW5xWH25efTNsLJA8knL"
  let (ata, _) ← okOr "failed to derive ATA address — no valid bump found" <|
    findOffCurve ext fun bump => sha256PdaSeeds ext
      [wallet.bytes, tokenProgram.bytes, mint.bytes, [bump]] ataProgram
  return ata

structure RpcError where
  code : ℤ
  message : String

structure RpcResponse where
  result : Option Value
  error : Option RpcError

/-- `i64`, of a JSON number. -/
def asI64 : Value → Option ℤ
  | .number (.posInt n) => i64TryFrom n
  | .number (.negInt n) => if n ≤ 2 ^ 63 then some (-n) else none
  | _ => none

/-- A field of a struct among the members of an object; one that comes twice is
an error. -/
def structField (fields : List (String × Value)) (name : String) :
    Option (Option Value) :=
  match fields.filter fun field => field.1 = name with
  | [] => some none
  | [(_, value)] => some (some value)
  | _ => none

/-- `Option`: null is `None`. -/
def optional {α : Type} (decode : Value → Option α) : Value → Option (Option α)
  | .null => some none
  | value => (decode value).map some

/-- `#[derive(Deserialize)]` on `RpcError`. -/
def decodeRpcError : Value → Option RpcError
  | .object fields => do
      let code ← (← structField fields "code").bind asI64
      let message ← (← structField fields "message").bind Value.asStr
      return { code, message }
  | .array [code, message] => do
      return { code := ← asI64 code, message := ← message.asStr }
  | _ => none

/-- `#[derive(Deserialize)]` on `RpcResponse`: what is missing is `None`, and
other members are ignored. -/
def decodeRpcResponse : Value → Option RpcResponse
  | .object fields => do
      let result ← optional some ((← structField fields "result").getD .null)
      let error ←
        optional decodeRpcError ((← structField fields "error").getD .null)
      return { result, error }
  | .array [result, error] => do
      let result ← optional some result
      let error ← optional decodeRpcError error
      return { result, error }
  | _ => none

/-- `RpcRequest`. -/
def rpcRequest (method : String) (params : List Value) : Value :=
  .object [("jsonrpc", .string "2.0"), ("id", .ofNat 1),
    ("method", .string method), ("params", .array params)]

/-- The result of a call, read from the reply. -/
def rpcResult : HttpReply → Except String (Option Value)
  | .notSent _ | .noResponse _ => .error "Solana RPC request failed"
  | .response status body => do
      rejectIf (¬ (200 ≤ status ∧ status < 300))
        s!"Solana RPC returned HTTP {ext.formatStatus status}"
      let response ← okOr "failed to parse Solana RPC response"
        (body.bind decodeRpcResponse)
      match response.error with
      | some err => .error s!"Solana RPC error {err.code}: {err.message}"
      | none => return response.result

def asArray : Value → Option (List Value)
  | .array items => some items
  | _ => none

/-- The data of an account; `none` if there is no such account. -/
def accountBytes : Option Value → Except String (Option (List UInt8))
  | none => return none
  | some result =>
      match result.get "value" with
      | none | some .null => return none
      | some value => do
          let items ← okOr "unexpected getAccountInfo response format"
            ((value.get "data").bind asArray)
          let b64Data ← okOr "missing base64 data in getAccountInfo response"
            (items.head?.bind Value.asStr)
          let bytes ← okOr "failed to decode base64 account data"
            (ext.decodeBase64 b64Data)
          return some bytes

/-- A token balance in units of the token. -/
def tokenAmount (result : Option Value) : Except String ℕ := do
  let result ← okOr "no result in getTokenAccountBalance response" result
  let amount ← okOr "unexpected getTokenAccountBalance response format"
    ((result.get "value").bind fun value =>
      (value.get "amount").bind Value.asStr)
  okOr "failed to parse token balance amount" (parseU64 amount)

def accountInfoRequest (pubkey : String) : Value :=
  rpcRequest "getAccountInfo"
    [.string pubkey, .object [("encoding", .string "base64")]]

def tokenBalanceRequest (ata : String) : Value :=
  rpcRequest "getTokenAccountBalance" [.string ata]

/-- What `get_account_info` makes of a reply. -/
def readAccountInfo (reply : HttpReply) : Except String (Option (List UInt8)) :=
  rpcResult ext reply >>= accountBytes ext

/-- What `get_token_account_balance` makes of a reply. -/
def readTokenBalance (reply : HttpReply) : Except String ℕ :=
  rpcResult ext reply >>= tokenAmount

abbrev Rpc := Prog SolanaOp SolanaReply String

def getAccountInfo (rpcUrl pubkey : String) : Rpc (Option (List UInt8)) := do
  let reply : HttpReply ←
    Prog.perform (SolanaOp.rpcPost rpcUrl (accountInfoRequest pubkey))
  .lift (readAccountInfo ext reply)

def getTokenAccountBalance (rpcUrl ata : String) : Rpc ℕ := do
  let reply : HttpReply ←
    Prog.perform (SolanaOp.rpcPost rpcUrl (tokenBalanceRequest ata))
  .lift (readTokenBalance ext reply)

end SolanaRpc

abbrev SolanaHandler := Prog SolanaOp SolanaReply (Fault AppError)

structure SolanaProxyResponse where
  success : Bool
  message : String
  vaultPda : Option String
  remainingDailyCapacity : Option UInt64
  data : Option Value

structure VaultStatusResponse where
  owner : String
  agent : String
  isActive : Bool
  maxSpendPerTx : UInt64
  maxSpendPerDay : UInt64
  spentToday : UInt64
  usdcBalance : Option ℕ
  agentExpiresAt : Int64
  allowedPrograms : List String

namespace SolanaRoute

variable (ext : SolanaExternals)

def emit (event : AuditEvent) : SolanaHandler Unit := do
  let _ ← Prog.perform (SolanaOp.emit event)

/-- Fail with an error, whatever it is made of. -/
def failing {ε α : Type} (error : ε → AppError) :
    Prog SolanaOp SolanaReply ε α → SolanaHandler α :=
  Prog.mapError fun cause => .error (error cause)

/-- Where the vault of an owner is: what both routes start with. -/
structure VaultLocation where
  rpcUrl : String
  vaultPda : Pubkey

/-- The account of a vault, fetched and decoded. -/
def fetchVault (location : VaultLocation) (owner : String) :
    SolanaHandler SolanaRpc.VaultState := do
  let account ← failing (fun e => .internal s!"Solana RPC error: {e}")
    (SolanaRpc.getAccountInfo ext location.rpcUrl
      (SolanaRpc.encodePubkey location.vaultPda))
  let data ← .lift (okOr
    (.error (.notFound s!"vault not found for owner {owner}")) account)
  .lift ((SolanaRpc.VaultState.fromAccountData data).mapError
    (Fault.map fun e => .internal s!"failed to deserialize vault state: {e}"))

/-- Steps 1 to 3, and the address of the vault. -/
def locateVault (config : SolanaConfig) (req : SolanaProxyRequest) :
    Checked VaultLocation := do
  orFail id (validateTargetUrl ext.toExternals req.targetUrl)
  refuseIf (req.network ≠ "solana-devnet" ∧ req.network ≠ "solana-mainnet")
    (.badRequest (s!"unsupported Solana network: '{req.network}' (expected " ++
      "'solana-devnet' or 'solana-mainnet')"))
  let rpcUrl ← okOr (.error (.badRequest "Solana support not configured"))
    config.solanaRpcUrl
  let programId ← okOr
    (.error (.badRequest "Solana program ID not configured"))
    config.solanaProgramId
  let owner ← orFail (fun e => .badRequest s!"invalid vault_owner pubkey: {e}")
    (SolanaRpc.decodePubkey req.vaultOwner)
  let programId ← orFail
    (fun e => .internal s!"invalid configured program ID: {e}")
    (SolanaRpc.decodePubkey programId)
  let (vaultPda, _) ← orFail (fun e => .internal s!"PDA derivation failed: {e}")
    (SolanaRpc.deriveVaultPda ext owner programId)
  return { rpcUrl, vaultPda }

/-- The clock, which only an active vault whose agent expires needs. -/
def readClock (vault : SolanaRpc.VaultState) : SolanaHandler (Option ℕ) :=
  if vault.isActive ∧ vault.agentExpiresAt > 0 then
    Prog.perform SolanaOp.clock
  else return none

/-- The event that ends the checks. -/
def submittedEvent (req : SolanaProxyRequest) (vaultPda : String) :
    AuditEvent where
  agentId := none
  sessionKeyId := none
  eventType := .solanaWithdrawSubmitted
  metadata := .object [("target_url", .string req.targetUrl),
    ("vault_owner", .string req.vaultOwner), ("vault_pda", .string vaultPda),
    ("amount", .ofNat req.amount.toNat), ("network", .string req.network)]

/-- The event that ends a forwarded request. -/
def concludedEvent (req : SolanaProxyRequest) (vaultPda : String)
    (eventType : AuditEventType) (status : ℕ) : AuditEvent where
  agentId := none
  sessionKeyId := none
  eventType := eventType
  metadata := .object [("target_url", .string req.targetUrl),
    ("vault_pda", .string vaultPda), ("amount", .ofNat req.amount.toNat),
    ("upstream_status", .ofNat status)]

def queriedEvent (ownerPubkey vaultPda : String) (isActive : Bool) :
    AuditEvent where
  agentId := none
  sessionKeyId := none
  eventType := .solanaVaultQueried
  metadata := .object [("owner", .string ownerPubkey),
    ("vault_pda", .string vaultPda), ("is_active", .bool isActive)]

/-- Report what became of the forwarded request. -/
def concludeForward (req : SolanaProxyRequest) (vaultPda : String)
    (remaining : UInt64) : HttpReply → SolanaHandler SolanaProxyResponse
  | .notSent cause | .noResponse cause =>
      .throw (.error (.internal s!"forward request failed: {cause}"))
  | .response status body =>
      let body := body.getD .null
      if 200 ≤ status ∧ status < 300 then do
        emit (concludedEvent req vaultPda .solanaWithdrawConfirmed status)
        return ⟨true, "vault validated, request forwarded", some vaultPda,
          some remaining, some body⟩
      else do
        emit (concludedEvent req vaultPda .solanaWithdrawFailed status)
        return ⟨false, s!"upstream returned {ext.formatStatus status}",
          some vaultPda, some remaining, some body⟩

/-- Step 6: report that the checks passed, and forward the request. -/
def forwardToTarget (req : SolanaProxyRequest) (vaultPda : String)
    (remaining : UInt64) : SolanaHandler SolanaProxyResponse := do
  emit (submittedEvent req vaultPda)
  .lift (refuseIf (ext.isHeaderValue req.x402Payment = false)
    (.internal "forward request failed: builder error"))
  let followed : Followed ←
    Prog.perform (SolanaOp.httpGet req.targetUrl req.x402Payment)
  concludeForward ext req vaultPda remaining followed.reply

/-- Steps 4 and 5: what the chain says of the vault, checked. -/
def checkOnChain (location : VaultLocation) (req : SolanaProxyRequest) :
    SolanaHandler UInt64 := do
  let vault ← fetchVault ext location req.vaultOwner
  let clock ← readClock vault
  .lift (preflight vault req.amount req.destinationProgram clock)

def forwardSolanaRequest (config : SolanaConfig) (req : SolanaProxyRequest) :
    SolanaHandler SolanaProxyResponse := do
  let location ← .lift (locateVault ext config req)
  let remaining ← checkOnChain ext location req
  forwardToTarget ext req (SolanaRpc.encodePubkey location.vaultPda) remaining

/-- The settings that both routes use, and the mint that only the status route
needs. -/
structure StatusConfig extends SolanaConfig where
  solanaUsdcMint : Option String

/-- Where the vault of an owner is, and the configured mint. -/
def locateStatus (config : StatusConfig) (ownerPubkey : String) :
    Checked (VaultLocation × Pubkey) := do
  let rpcUrl ← okOr (.error (.badRequest "Solana support not configured"))
    config.solanaRpcUrl
  let programId ← okOr
    (.error (.badRequest "Solana program ID not configured"))
    config.solanaProgramId
  let usdcMint ← okOr (.error (.badRequest "Solana USDC mint not configured"))
    config.solanaUsdcMint
  let owner ← orFail (fun e => .badRequest s!"invalid owner pubkey: {e}")
    (SolanaRpc.decodePubkey ownerPubkey)
  let programId ← orFail
    (fun e => .internal s!"invalid configured program ID: {e}")
    (SolanaRpc.decodePubkey programId)
  let usdcMint ← orFail
    (fun e => .internal s!"invalid configured USDC mint: {e}")
    (SolanaRpc.decodePubkey usdcMint)
  let (vaultPda, _) ← orFail (fun e => .internal s!"PDA derivation failed: {e}")
    (SolanaRpc.deriveVaultPda ext owner programId)
  return ({ rpcUrl, vaultPda }, usdcMint)

/-- The balance of a token account, if it can be had. -/
def bestEffortBalance (rpcUrl ata : String) : SolanaHandler (Option ℕ) := do
  let balance ← (SolanaRpc.getTokenAccountBalance ext rpcUrl ata).attempt
  return balance.toOption

def statusOf (vault : SolanaRpc.VaultState) (usdcBalance : Option ℕ) :
    VaultStatusResponse where
  owner := SolanaRpc.encodePubkey vault.owner
  agent := SolanaRpc.encodePubkey vault.agent
  isActive := vault.isActive
  maxSpendPerTx := vault.maxSpendPerTx
  maxSpendPerDay := vault.maxSpendPerDay
  spentToday := vault.spentToday
  usdcBalance := usdcBalance
  agentExpiresAt := vault.agentExpiresAt
  allowedPrograms := vault.allowedPrograms.map SolanaRpc.encodePubkey

def getVaultStatus (config : StatusConfig) (ownerPubkey : String) :
    SolanaHandler VaultStatusResponse := do
  let (location, usdcMint) ← .lift (locateStatus ext config ownerPubkey)
  let vault ← fetchVault ext location ownerPubkey
  let vaultAta ← .lift (orFail
    (fun e => .internal s!"ATA derivation failed: {e}")
    (SolanaRpc.deriveAta ext location.vaultPda usdcMint))
  let usdcBalance ← bestEffortBalance ext location.rpcUrl
    (SolanaRpc.encodePubkey vaultAta)
  emit (queriedEvent ownerPubkey (SolanaRpc.encodePubkey location.vaultPda)
    vault.isActive)
  return statusOf vault usdcBalance

open Prog

variable {ext : SolanaExternals} {location : VaultLocation}
variable {req : SolanaProxyRequest}
variable {trace : List (Event SolanaOp SolanaReply)}

/-- The operation asks or reads; it reports and forwards nothing. -/
def Queries : SolanaOp → Prop
  | .clock | .rpcPost .. => True
  | .emit _ | .httpGet .. => False

/-- The node says `data?` of the account at the address. -/
def SaysAccount (ext : SolanaExternals) (address : Pubkey)
    (data? : Option (List UInt8)) : Event SolanaOp SolanaReply → Prop
  | ⟨.rpcPost _ request, reply, _, _⟩ =>
      request =
        SolanaRpc.accountInfoRequest (SolanaRpc.encodePubkey address) ∧
      SolanaRpc.readAccountInfo ext reply = .ok data?
  | _ => False

/-- The node says that the token account at the address holds the amount. -/
def SaysBalance (ext : SolanaExternals) (address : Pubkey) (amount : ℕ) :
    Event SolanaOp SolanaReply → Prop
  | ⟨.rpcPost _ request, reply, _, _⟩ =>
      request =
        SolanaRpc.tokenBalanceRequest (SolanaRpc.encodePubkey address) ∧
      SolanaRpc.readTokenBalance ext reply = .ok amount
  | _ => False

theorem getAccountInfo_ret {rpcUrl : String} {address : Pubkey}
    {data? : Option (List UInt8)}
    (h : (SolanaRpc.getAccountInfo ext rpcUrl
      (SolanaRpc.encodePubkey address)).Reaches trace (.ret data?)) :
    ∃ event, trace = [event] ∧ SaysAccount ext address data? event := by
  obtain ⟨first, second, reply, rfl, hasked, hread⟩ :=
    reaches_bind_ret_iff.mp h
  obtain ⟨order, time, rfl⟩ := reaches_perform_ret_iff.mp hasked
  obtain ⟨rfl, hresult⟩ := reaches_lift_ret_iff.mp hread
  exact ⟨_, rfl, rfl, hresult⟩

theorem getTokenAccountBalance_ret {rpcUrl : String} {address : Pubkey}
    {amount : ℕ}
    (h : (SolanaRpc.getTokenAccountBalance ext rpcUrl
      (SolanaRpc.encodePubkey address)).Reaches trace (.ret amount)) :
    ∃ event, trace = [event] ∧ SaysBalance ext address amount event := by
  obtain ⟨first, second, reply, rfl, hasked, hread⟩ :=
    reaches_bind_ret_iff.mp h
  obtain ⟨order, time, rfl⟩ := reaches_perform_ret_iff.mp hasked
  obtain ⟨rfl, hresult⟩ := reaches_lift_ret_iff.mp hread
  exact ⟨_, rfl, rfl, hresult⟩

/-- A vault was fetched when the node said that its account holds data, and
the data was decoded. -/
theorem fetchVault_ret {owner : String} {vault : SolanaRpc.VaultState}
    (h : (fetchVault ext location owner).Reaches trace (.ret vault)) :
    ∃ event data, trace = [event] ∧
      SaysAccount ext location.vaultPda (some data) event ∧
      SolanaRpc.VaultState.fromAccountData data = .ok vault := by
  simp only [fetchVault, failing, reaches_bind_ret_iff,
    reaches_mapError_ret_iff, reaches_lift_ret_iff, okOr_eq_ok_iff,
    mapError_eq_ok_iff] at h
  obtain ⟨first, _, data?, rfl, hasked, _, _, data, rfl, ⟨rfl, rfl⟩, rfl,
    hdecoded⟩ := h
  obtain ⟨event, rfl, htells⟩ := getAccountInfo_ret hasked
  exact ⟨event, data, by simp, htells, hdecoded⟩

theorem getAccountInfo_within (rpcUrl pubkey : String) :
    (SolanaRpc.getAccountInfo ext rpcUrl pubkey).Within Queries :=
  ⟨trivial, fun _ => within_lift ..⟩

theorem fetchVault_within (owner : String) :
    (fetchVault ext location owner).Within Queries :=
  (within_mapError.mpr (getAccountInfo_within _ _)).bind fun _ =>
    (within_lift ..).bind fun _ => within_lift ..

theorem readClock_within (vault : SolanaRpc.VaultState) :
    (readClock vault).Within Queries := by
  unfold readClock
  split
  · exact ⟨trivial, fun _ => trivial⟩
  · trivial

theorem checkOnChain_within :
    (checkOnChain ext location req).Within Queries :=
  (fetchVault_within _).bind fun vault =>
    (readClock_within vault).bind fun _ => within_lift ..

/-- The checks passed for what the node said of the vault. -/
structure Preflighted (ext : SolanaExternals) (location : VaultLocation)
    (req : SolanaProxyRequest) (remaining : UInt64)
    (trace : List (Event SolanaOp SolanaReply)) : Prop where
  queries : ∀ event ∈ trace, Queries event.op
  passed : ∃ event ∈ trace, ∃ data vault clock,
    SaysAccount ext location.vaultPda (some data) event ∧
    SolanaRpc.VaultState.fromAccountData data = .ok vault ∧
    (vault.agentExpiresAt > 0 → Performed trace .clock clock) ∧
    preflight vault req.amount req.destinationProgram clock = .ok remaining

theorem checkOnChain_ret {remaining : UInt64}
    (h : (checkOnChain ext location req).Reaches trace (.ret remaining)) :
    Preflighted ext location req remaining trace := by
  refine ⟨checkOnChain_within.of_mem h, ?_⟩
  simp only [checkOnChain, reaches_bind_ret_iff, reaches_lift_ret_iff] at h
  obtain ⟨fetched, _, vault, rfl, hfetch, read, _, clock, rfl, hread, rfl,
    hpassed⟩ := h
  obtain ⟨event, data, rfl, htells, hdecoded⟩ := fetchVault_ret hfetch
  refine ⟨event, by simp, data, vault, clock, htells, hdecoded, ?_, hpassed⟩
  intro hexpires
  have hactive : vault.isActive = true := by
    simp only [preflight, except_bind_eq_ok, refuseIf_eq_ok_iff, not_not]
      at hpassed
    obtain ⟨_, hactive, _⟩ := hpassed
    exact hactive
  rw [readClock, if_pos ⟨hactive, hexpires⟩] at hread
  obtain ⟨order, time, rfl⟩ := reaches_perform_ret_iff.mp hread
  exact ⟨order, time, by simp⟩

/-- The checks are those of the account that the node gave. -/
theorem Preflighted.checkVault {remaining : UInt64}
    (h : Preflighted ext location req remaining trace) :
    ∃ event ∈ trace, ∃ data clock,
      SaysAccount ext location.vaultPda (some data) event ∧
      X402Guard.checkVault data req.amount req.destinationProgram clock =
        .ok remaining := by
  obtain ⟨event, hevent, data, vault, clock, htells, hdecoded, _, hpassed⟩ :=
    h.passed
  refine ⟨event, hevent, data, clock, htells, ?_⟩
  rw [X402Guard.checkVault, hdecoded]
  exact hpassed

/-- The request goes to its target. -/
def forwards : SolanaOp → Bool
  | .httpGet .. => true
  | _ => false

/-- Where the payment arrives, in this order. -/
def receivers : Event SolanaOp SolanaReply → List String
  | ⟨.httpGet url _, followed, _, _⟩ => url :: followed.redirects
  | _ => []

theorem exists_redirects {event : Event SolanaOp SolanaReply}
    {url payment : String} (h : event.op = .httpGet url payment) :
    ∃ redirects, receivers event = url :: redirects ∧
      redirects.length ≤ maxRedirects := by
  obtain ⟨op, reply, order, time⟩ := event
  cases h
  exact ⟨reply.redirects, rfl, reply.redirects_le⟩

theorem queries_forwards {op : SolanaOp} (h : Queries op) :
    forwards op = false := by
  cases op <;> first | rfl | exact h.elim

/-- What is left to do after the reply of the target is to report it. -/
theorem concludeForward_within {vaultPda : String} {remaining : UInt64}
    {reply : HttpReply} :
    (concludeForward ext req vaultPda remaining reply).Within
      fun op => forwards op = false := by
  unfold concludeForward
  split
  · trivial
  · trivial
  · split
    · exact ⟨rfl, fun _ => trivial⟩
    · exact ⟨rfl, fun _ => trivial⟩

@[simp] theorem emit_bind {α : Type} (event : AuditEvent)
    (f : Unit → SolanaHandler α) :
    emit event >>= f = .call (.emit event) fun _ => f () := rfl

/-- A request that goes out was reported right before, and goes out once. -/
theorem forwardToTarget_forwards {vaultPda : String} {remaining : UInt64}
    {rest : SolanaHandler SolanaProxyResponse}
    (h : (forwardToTarget ext req vaultPda remaining).Reaches trace rest)
    {event : Event SolanaOp SolanaReply} (hevent : event ∈ trace)
    (hforwards : forwards event.op = true) :
    event.op = .httpGet req.targetUrl req.x402Payment ∧
    ∃ submitted after, trace = submitted :: event :: after ∧
      submitted.op = .emit (submittedEvent req vaultPda) ∧
      ∀ other ∈ after, forwards other.op = false := by
  rw [forwardToTarget, emit_bind, reaches_call_iff] at h
  rcases h with ⟨rfl, _⟩ | ⟨reported, order, time, tail, rfl, htail⟩
  · cases hevent
  rcases List.mem_cons.mp hevent with rfl | hevent
  · cases hforwards
  rcases reaches_bind_iff.mp htail with
    ⟨p', hlift, _⟩ | ⟨_, first, second, rfl, hlift, hget⟩
  · exact absurd ((within_lift (fun _ => False) _).of_mem hlift event hevent)
      id
  obtain ⟨rfl, _⟩ := reaches_lift_ret_iff.mp hlift
  rw [perform_bind, reaches_call_iff] at hget
  rcases hget with ⟨rfl, _⟩ | ⟨followed, order', time', after, rfl, hafter⟩
  · cases hevent
  have hquiet := concludeForward_within.of_mem hafter
  rcases List.mem_cons.mp hevent with rfl | hevent
  · exact ⟨rfl, _, after, rfl, rfl, hquiet⟩
  · rw [hquiet event hevent] at hforwards
    cases hforwards

/-- A request that was answered was reported, forwarded, and reported again
with the status of the target. -/
theorem forwardToTarget_ret {vaultPda : String} {remaining : UInt64}
    {response : SolanaProxyResponse}
    (h : (forwardToTarget ext req vaultPda remaining).Reaches trace
      (.ret response)) :
    ∃ followed status body submitted get concluded,
      trace = [submitted, get, concluded] ∧
      submitted.op = .emit (submittedEvent req vaultPda) ∧
      (∃ order time, get = ⟨.httpGet req.targetUrl req.x402Payment, followed,
        order, time⟩) ∧
      followed.reply = .response status body ∧
      concluded.op = .emit (concludedEvent req vaultPda
        (if response.success then .solanaWithdrawConfirmed
        else .solanaWithdrawFailed) status) ∧
      (response.success = true ↔ 200 ≤ status ∧ status < 300) ∧
      response.vaultPda = some vaultPda ∧
      response.remainingDailyCapacity = some remaining ∧
      response.data = some (body.getD .null) := by
  rw [forwardToTarget, emit_bind, reaches_call_ret_iff] at h
  obtain ⟨reported, order, time, tail, rfl, htail⟩ := h
  obtain ⟨first, second, _, rfl, hlift, hget⟩ := reaches_bind_ret_iff.mp htail
  obtain ⟨rfl, _⟩ := reaches_lift_ret_iff.mp hlift
  rw [perform_bind, reaches_call_ret_iff] at hget
  obtain ⟨⟨redirects, hredirects, reply⟩, order', time', after, rfl, hafter⟩ :=
    hget
  cases reply with
  | notSent cause => exact absurd (reaches_throw_iff.mp hafter).2 (by simp)
  | noResponse cause => exact absurd (reaches_throw_iff.mp hafter).2 (by simp)
  | response status body =>
      simp only [concludeForward] at hafter
      split at hafter
      · rename_i hstatus
        rw [emit_bind, reaches_call_ret_iff] at hafter
        obtain ⟨_, _, _, last, rfl, hlast⟩ := hafter
        obtain ⟨rfl, heq⟩ := reaches_ret_iff.mp hlast
        cases heq
        exact ⟨_, status, body, _, _, _, rfl, rfl, ⟨order', time', rfl⟩, rfl,
          rfl, by simp [hstatus], rfl, rfl, rfl⟩
      · rename_i hstatus
        rw [emit_bind, reaches_call_ret_iff] at hafter
        obtain ⟨_, _, _, last, rfl, hlast⟩ := hafter
        obtain ⟨rfl, heq⟩ := reaches_ret_iff.mp hlast
        cases heq
        exact ⟨_, status, body, _, _, _, rfl, rfl, ⟨order', time', rfl⟩, rfl,
          rfl, by simp [hstatus], rfl, rfl, rfl⟩

/-- A request goes out after its checks have passed, once, and right after it
was reported. -/
theorem forwardSolanaRequest_forwards {config : SolanaConfig}
    {rest : SolanaHandler SolanaProxyResponse}
    (h : (forwardSolanaRequest ext config req).Reaches trace rest)
    {event : Event SolanaOp SolanaReply} (hevent : event ∈ trace)
    (hforwards : forwards event.op = true) :
    ∃ location remaining checks submitted after,
      locateVault ext config req = .ok location ∧
      trace = checks ++ submitted :: event :: after ∧
      Preflighted ext location req remaining checks ∧
      submitted.op =
        .emit (submittedEvent req (SolanaRpc.encodePubkey location.vaultPda)) ∧
      event.op = .httpGet req.targetUrl req.x402Payment ∧
      ∀ other ∈ checks ++ submitted :: after, forwards other.op = false := by
  rcases reaches_bind_iff.mp h with
    ⟨p', hlift, _⟩ | ⟨location, first, second, rfl, hlift, hchecks⟩
  · exact absurd ((within_lift (fun _ => False) _).of_mem hlift event hevent)
      id
  obtain ⟨rfl, hlocation⟩ := reaches_lift_ret_iff.mp hlift
  obtain ⟨remaining, checks, sending, rfl, hchecked, hsend, hsent⟩ :=
    reaches_bind_of_mem hchecks checkOnChain_within hevent fun hquery => by
      rw [queries_forwards hquery] at hforwards
      cases hforwards
  have hpreflighted := checkOnChain_ret hchecked
  obtain ⟨hop, submitted, after, rfl, hsubmitted, hquiet⟩ :=
    forwardToTarget_forwards hsend hsent hforwards
  refine ⟨location, remaining, checks, submitted, after, hlocation, rfl,
    hpreflighted, hsubmitted, hop, ?_⟩
  intro other hother
  rcases List.mem_append.mp hother with hcheck | hother
  · exact queries_forwards (hpreflighted.queries other hcheck)
  · rcases List.mem_cons.mp hother with rfl | hafter
    · rw [hsubmitted]
      rfl
    · exact hquiet other hafter

/-- An answered request has passed its checks, and its answer says what they
left and what the target said. -/
theorem forwardSolanaRequest_ret {config : SolanaConfig}
    {response : SolanaProxyResponse}
    (h : (forwardSolanaRequest ext config req).Reaches trace
      (.ret response)) :
    ∃ location remaining checks sending,
      locateVault ext config req = .ok location ∧ trace = checks ++ sending ∧
      Preflighted ext location req remaining checks ∧
      (forwardToTarget ext req (SolanaRpc.encodePubkey location.vaultPda)
        remaining).Reaches sending (.ret response) := by
  obtain ⟨_, tail, location, rfl, hlift, hchecks⟩ := reaches_bind_ret_iff.mp h
  obtain ⟨rfl, hlocation⟩ := reaches_lift_ret_iff.mp hlift
  obtain ⟨checks, sending, remaining, rfl, hchecked, hsend⟩ :=
    reaches_bind_ret_iff.mp hchecks
  exact ⟨location, remaining, checks, sending, hlocation, rfl,
    checkOnChain_ret hchecked, hsend⟩

/-- An answer of the status route is what the node said of the vault, with the
balance that it gave of the token account, if it gave one. -/
theorem getVaultStatus_ret {config : StatusConfig} {ownerPubkey : String}
    {response : VaultStatusResponse}
    (h : (getVaultStatus ext config ownerPubkey).Reaches trace
      (.ret response)) :
    ∃ location usdcMint ata said data vault usdcBalance,
      locateStatus ext config ownerPubkey = .ok (location, usdcMint) ∧
      SolanaRpc.deriveAta ext location.vaultPda usdcMint = .ok ata ∧
      said ∈ trace ∧ SaysAccount ext location.vaultPda (some data) said ∧
      SolanaRpc.VaultState.fromAccountData data = .ok vault ∧
      response = statusOf vault usdcBalance ∧
      ∀ amount ∈ usdcBalance, ∃ asked ∈ trace,
        SaysBalance ext ata amount asked := by
  obtain ⟨_, routed, ⟨location, usdcMint⟩, rfl, hlift, hrouted⟩ :=
    reaches_bind_ret_iff.mp h
  obtain ⟨rfl, hlocation⟩ := reaches_lift_ret_iff.mp hlift
  obtain ⟨fetched, derived, vault, rfl, hfetched, hderived⟩ :=
    reaches_bind_ret_iff.mp hrouted
  obtain ⟨said, data, rfl, htells, hdecoded⟩ := fetchVault_ret hfetched
  obtain ⟨_, queried, ata, rfl, hderive, hqueried⟩ :=
    reaches_bind_ret_iff.mp hderived
  obtain ⟨rfl, hata⟩ := reaches_lift_ret_iff.mp hderive
  obtain ⟨balances, reported, usdcBalance, rfl, hbalance, hreported⟩ :=
    reaches_bind_ret_iff.mp hqueried
  rw [emit_bind, reaches_call_ret_iff] at hreported
  obtain ⟨_, _, _, last, rfl, hlast⟩ := hreported
  obtain ⟨rfl, heq⟩ := reaches_ret_iff.mp hlast
  cases heq
  refine ⟨location, usdcMint, ata, said, data, vault, usdcBalance, hlocation,
    mapError_eq_ok_iff.mp hata, by simp, htells, hdecoded, rfl, ?_⟩
  intro amount hamount
  obtain ⟨asked, _, result, rfl, hasked, hret⟩ :=
    reaches_bind_ret_iff.mp hbalance
  obtain ⟨rfl, heq⟩ := reaches_ret_iff.mp hret
  cases heq
  cases result with
  | error cause => cases hamount
  | ok balance =>
      cases hamount
      rw [reaches_attempt_ret_iff, lift_ok] at hasked
      obtain ⟨event, rfl, htells⟩ := getTokenAccountBalance_ret hasked
      exact ⟨event, by simp, htells⟩

/-- The status route forwards nothing. -/
theorem getVaultStatus_within (config : StatusConfig) (ownerPubkey : String) :
    (getVaultStatus ext config ownerPubkey).Within
      fun op => forwards op = false := by
  refine (within_lift ..).bind fun (location, usdcMint) => ?_
  refine ((fetchVault_within _).mono fun _ => queries_forwards).bind
    fun vault => ?_
  refine (within_lift ..).bind fun ata => ?_
  refine Within.bind ?_ fun usdcBalance => ⟨rfl, fun _ => trivial⟩
  refine Within.bind ?_ fun _ => trivial
  exact within_attempt.mpr ⟨rfl, fun _ => within_lift ..⟩

end SolanaRoute

end X402Guard
