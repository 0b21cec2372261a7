/-
The management API: agents, guardrail rules, session keys, and the emergency
stop that revokes every key of an agent and deactivates it.
-/
import X402Guard.ForwardRequest

namespace X402Guard

open Interaction

variable (ext : Externals)

/-- `AgentResponse`, `RuleResponse`, `SessionKeyResponse`. -/
structure DataResponse (α : Type) where
  success : Bool
  data : Option α
  error : Option String

def DataResponse.ok {α : Type} (data : Option α) : DataResponse α :=
  ⟨true, data, none⟩

structure CreateAgentRequest where
  name : String
  ownerAddress : String
deriving DecidableEq, Repr

def createAgent (req : CreateAgentRequest) : Handler (DataResponse Agent) := do
  .lift (rejectIf (req.name = "") (.badRequest "name is required"))
  .lift (rejectIf (req.ownerAddress = "")
    (.badRequest "owner_address is required"))
  let agent ← (Repo.Agents.create req.name req.ownerAddress).mapError .internal
  emit {
    agentId := some agent.id
    sessionKeyId := none
    eventType := .agentCreated
    metadata := .object [("name", .string agent.name),
      ("owner_address", .string agent.ownerAddress)] }
  return .ok (some agent)

/-- Look an agent up, or fail with NotFound. -/
def requireAgent (agentId : Uuid) : Handler Agent := do
  let found ← (Repo.Agents.findById agentId).mapError .internal
  .lift (okOr (.notFound s!"agent {formatUuid agentId} not found") found)

def getAgent (id : Uuid) : Handler (DataResponse Agent) := do
  let agent ← requireAgent id
  return .ok (some agent)

def createRule (agentId : Uuid) (ruleType : RuleType) :
    Handler (DataResponse GuardrailRule) := do
  let _ ← requireAgent agentId
  let rule ← (Repo.Guardrails.create agentId ruleType).mapError .internal
  return .ok (some rule)

def updateRuleWithBody (agentId ruleId : Uuid) (ruleType : RuleType)
    (isActive : Bool) : Handler (DataResponse GuardrailRule) := do
  let rule ← (Repo.Guardrails.update ruleId agentId ruleType isActive).mapError
    .internal
  return .ok (some rule)

def deactivateRule (agentId ruleId : Uuid) :
    Handler (DataResponse GuardrailRule) := do
  (Repo.Guardrails.deactivate ruleId agentId).mapError .internal
  return .ok none

structure CreateSessionKeyRequest where
  publicKey : String
  maxSpend : Nat
  allowedContracts : List String
  expiresAt : Int
deriving DecidableEq, Repr

def createSessionKey (agentId : Uuid) (req : CreateSessionKeyRequest) :
    Handler (DataResponse SessionKey) := do
  .lift (rejectIf (req.publicKey = "") (.badRequest "public_key is required"))
  .lift (rejectIf (req.maxSpend = 0) (.badRequest "max_spend must be > 0"))
  let now : Micros ← Prog.perform Op.clock
  .lift (rejectIf (req.expiresAt ≤ now)
    (.badRequest "expires_at must be in the future"))
  -- the agent must exist; whether it is active is not asked
  let _ ← requireAgent agentId
  let key ← (Repo.SessionKeys.create agentId req.publicKey req.maxSpend
    req.allowedContracts req.expiresAt).mapError .internal
  emit {
    agentId := some agentId
    sessionKeyId := some key.id
    eventType := .sessionKeyCreated
    metadata := .object [("public_key", .string req.publicKey),
      ("max_spend", .ofNat req.maxSpend),
      ("expires_at", .string (ext.formatRfc3339 req.expiresAt))] }
  return .ok (some key)

def getSessionKey (agentId keyId : Uuid) :
    Handler (DataResponse SessionKey) := do
  let found ← (Repo.SessionKeys.findById keyId).mapError .internal
  let notFound := AppError.notFound s!"session key {formatUuid keyId} not found"
  let key ← .lift (okOr notFound found)
  -- the key must belong to the requested agent
  .lift (rejectIf (key.agentId ≠ agentId) notFound)
  return .ok (some key)

def revokeSessionKey (agentId keyId : Uuid) :
    Handler (DataResponse SessionKey) := do
  (Repo.SessionKeys.revoke keyId agentId).mapError .internal
  emit {
    agentId := some agentId
    sessionKeyId := some keyId
    eventType := .sessionKeyRevoked
    metadata := .object [] }
  return .ok none

structure RevokeAllRequest where
  ownerAddress : String
  chainId : Option Nat
  eoaNonceHint : Option Nat
deriving DecidableEq, Repr

structure RevokeAllResponse where
  success : Bool
  keysRevoked : Nat
  agentDeactivated : Bool
  onChainAuthorization : Option Value

/-- `str::eq_ignore_ascii_case`. -/
def eqIgnoreAsciiCase (a b : String) : Bool :=
  a.toList.map Char.toLower = b.toList.map Char.toLower

def zeroAddress : String := "0x0000000000000000000000000000000000000000"

/-- Unsigned EIP-7702 authorization data that revokes all delegation. -/
def createRevokeAuthorizationData (chainId : Nat) (eoaNonceHint : Option Nat) :
    Value :=
  .object [("chain_id", .ofNat chainId), ("address", .string zeroAddress),
    ("nonce", (eoaNonceHint.map Value.ofNat).getD .null),
    ("message", .string "Sign to revoke all EIP-7702 delegation for this EOA")]

/-- Revoke all session keys of an agent and deactivate it, in one
transaction. -/
def revokeAll (agentId : Uuid) (req : RevokeAllRequest) :
    Handler RevokeAllResponse := do
  .lift (rejectIf (req.ownerAddress = "")
    (.badRequest "owner_address is required"))
  let agent ← requireAgent agentId
  .lift (rejectIf (¬ eqIgnoreAsciiCase agent.ownerAddress req.ownerAddress)
    (.unauthorized "owner_address does not match agent owner"))
  let tx ← (Repo.query .begin).mapError .internal
  let (keysRevoked, tx) ←
    (Repo.SessionKeys.revokeAllByAgentTx tx agentId).mapError .internal
  let tx ← (Repo.Agents.deactivateTx tx agentId).mapError .internal
  (Repo.query (.commit tx)).mapError .internal
  emit {
    agentId := some agentId
    sessionKeyId := none
    eventType := .allSessionKeysRevoked
    metadata := .object [("keys_revoked", .ofNat keysRevoked),
      ("owner_address", .string req.ownerAddress)] }
  emit {
    agentId := some agentId
    sessionKeyId := none
    eventType := .agentDeactivated
    metadata := .object [("triggered_by", .string "revoke_all")] }
  let authData := createRevokeAuthorizationData (req.chainId.getD 8453)
    req.eoaNonceHint
  return ⟨true, keysRevoked, true, some authData⟩

end X402Guard
