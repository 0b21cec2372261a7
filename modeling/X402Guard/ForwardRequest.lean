/-
The x402 proxy flow, step by step as `forward_request` runs it.
-/
import X402Guard.Repositories
import X402Guard.UrlChecks

namespace X402Guard

open Interaction

abbrev Handler := Prog Op Reply AppError

structure AppConfig where
  rateLimitRps : Nat
deriving DecidableEq, Repr

structure ProxyRequest where
  targetUrl : String
  x402Payment : String
  x402Requirements : String
  agentId : Option String
  sessionKeyId : Option String
deriving DecidableEq, Repr

structure ProxyResponse where
  success : Bool
  txHash : Option String
  message : String
  data : Option Value

variable (ext : Externals) (config : AppConfig)

def emit (event : AuditEvent) : Handler Unit := do
  let _ ← Prog.perform (Op.emit event)

def parsePaymentRequirements (header : String) :
    Except AppError PaymentRequirements :=
  (ext.decodeRequirements header).mapError .badRequest

def parsePaymentPayload (header : String) : Except AppError PaymentPayload :=
  (ext.decodePayload header).mapError .badRequest

/-- An optional identifier; one that is present must parse. -/
def parseOptionalId (message : String) :
    Option String → Except AppError (Option Uuid)
  | none => .ok none
  | some text => (okOr (.badRequest message) (ext.parseUuid text)).map some

/-- What the first five steps establish about a request. -/
structure Received where
  requirements : PaymentRequirements
  verified : VerifiedPayment
  agentId : Option Uuid
  sessionKeyId : Option Uuid
  paymentAmount : Nat

/-- Verify the payment at the given time and parse the identifiers. -/
def verifyRequest (req : ProxyRequest) (requirements : PaymentRequirements)
    (payment : PaymentPayload) (nowSecs : Nat) : Except AppError Received := do
  let verified ← verifyPayment ext requirements payment nowSecs
  let agentId ← parseOptionalId ext "invalid agent_id UUID" req.agentId
  let sessionKeyId ← parseOptionalId ext "invalid session_key_id UUID"
    req.sessionKeyId
  -- values that overflow u64 are rejected before any database operation
  let paymentAmount ← okOr
    (.badRequest "payment value exceeds maximum supported amount (u64)")
    (u64OfU256 verified.value)
  return { requirements, verified, agentId, sessionKeyId, paymentAmount }

def receivedEvent (req : ProxyRequest) : AuditEvent where
  agentId := req.agentId.bind ext.parseUuid
  sessionKeyId := req.sessionKeyId.bind ext.parseUuid
  eventType := .proxyRequestReceived
  metadata := .object [("target_url", .string req.targetUrl)]

/-- Steps 1 to 5. -/
def receivePayment (req : ProxyRequest) : Handler Received := do
  .lift (validateTargetUrl ext req.targetUrl)
  emit (receivedEvent ext req)
  let requirements ← .lift
    (parsePaymentRequirements ext req.x402Requirements)
  let payment ← .lift (parsePaymentPayload ext req.x402Payment)
  .lift (validateResourceMatch ext req.targetUrl requirements.resource)
  .lift (validateAssetMatch ext payment requirements)
  let now : Micros ← Prog.perform Op.clock
  .lift (verifyRequest ext req requirements payment (now / microsPerSecond))

/-- A request whose texts pass is received by verifying its payment. -/
theorem receivePayment_of_ok {req : ProxyRequest}
    {requirements : PaymentRequirements} {payment : PaymentPayload}
    (hurl : validateTargetUrl ext req.targetUrl = .ok ())
    (hrequirements : parsePaymentRequirements ext req.x402Requirements =
      .ok requirements)
    (hpayment : parsePaymentPayload ext req.x402Payment = .ok payment)
    (hresource : validateResourceMatch ext req.targetUrl
      requirements.resource = .ok ())
    (hasset : validateAssetMatch ext payment requirements = .ok ()) :
    receivePayment ext req = emit (receivedEvent ext req) >>= fun _ =>
      Prog.perform Op.clock >>= fun now : Micros =>
        .lift (verifyRequest ext req requirements payment
          (now / microsPerSecond)) := by
  unfold receivePayment
  simp only [hurl, hrequirements, hpayment, hresource, hasset, Prog.lift_ok,
    Prog.ret_bind]

/-- Where the payment verifies at every time of a window, no verification is
left to do in it. -/
theorem receivePayment_of_verified {req : ProxyRequest}
    {requirements : PaymentRequirements} {payment : PaymentPayload}
    {received : Received} {validAfter validBefore : Nat}
    (hurl : validateTargetUrl ext req.targetUrl = .ok ())
    (hrequirements : parsePaymentRequirements ext req.x402Requirements =
      .ok requirements)
    (hpayment : parsePaymentPayload ext req.x402Payment = .ok payment)
    (hresource : validateResourceMatch ext req.targetUrl
      requirements.resource = .ok ())
    (hasset : validateAssetMatch ext payment requirements = .ok ())
    (hverify : ∀ nowSecs, validAfter ≤ nowSecs → nowSecs < validBefore →
      verifyRequest ext req requirements payment nowSecs = .ok received) :
    receivePayment ext req = emit (receivedEvent ext req) >>= fun _ =>
      Prog.perform Op.clock >>= fun now : Micros =>
        if validAfter ≤ now / microsPerSecond ∧
            now / microsPerSecond < validBefore then .ret received
        else .lift (verifyRequest ext req requirements payment
          (now / microsPerSecond)) := by
  rw [receivePayment_of_ok ext hurl hrequirements hpayment hresource hasset]
  congr 1
  funext _
  congr 1
  funext now
  split
  · rename_i hwindow
    rw [hverify _ hwindow.1 hwindow.2, Prog.lift_ok]
  · rfl

/-- Step 6: session key verification, if a session key is named. -/
def checkSessionKey (received : Received) : Handler Unit :=
  match received.sessionKeyId with
  | none => return ()
  | some keyId => do
      let found ← (Repo.SessionKeys.findById keyId).mapError .internal
      let key ← .lift (okOr
        (.notFound s!"session key {formatUuid keyId} not found") found)
      let now : Micros ← Prog.perform Op.clock
      .lift (verifySessionKey ext now key received.verified
        (targetContract received.requirements))

/-- Step 7: guardrails evaluation, if an agent is named. -/
def checkGuardrails (req : ProxyRequest) (received : Received) :
    Handler (Option (List GuardrailRule)) :=
  match received.agentId with
  | none => return none
  | some agentId => do
      let found ← (Repo.Agents.findById agentId).mapError .internal
      let agent ← .lift (okOr
        (.notFound s!"agent {formatUuid agentId} not found") found)
      .lift (rejectIf (¬ agent.isActive) (.forbidden "agent is deactivated"))
      let rules ←
        (Repo.Guardrails.findActiveByAgent agentId).mapError .internal
      let dailySpent ← (Repo.SpendLedger.sumLast24h agentId).mapError .internal
      match evaluate ext rules received.verified received.requirements
          dailySpent with
      | .ok () => return some rules
      | .error violation => do
          emit {
            agentId := some agentId
            sessionKeyId := received.sessionKeyId
            eventType := .guardrailViolation
            metadata := .object [("target_url", .string req.targetUrl),
              ("violation", .string violation.toString)] }
          .throw violation

def minNonceTtl : Nat := 60
def maxNonceTtl : Nat := 86_400

/-- The time to live of a nonce: what the caller asks for, clamped. -/
def nonceTtl (requirements : PaymentRequirements) : Nat :=
  max minNonceTtl (min maxNonceTtl requirements.maxTimeoutSeconds)

def nonceHex (verified : VerifiedPayment) : String :=
  hexEncode verified.nonce.bytes

def nonceKey (nonceHex : String) : String := s!"x402:nonce:{nonceHex}"

/-- `NonceStore::check_and_store`: a failing SET counts as a replay. -/
def checkAndStore (nonceHex : String) (ttlSecs : Nat) : RepoM Bool := do
  let connected : Except String Unit ← Prog.perform Op.redisConnect
  .lift connected
  let wasSet : Except String Bool ←
    Prog.perform (Op.redis (.setNxEx (nonceKey nonceHex) ttlSecs))
  return wasSet.toOption.getD false

/-- Step 8: nonce deduplication. -/
def checkNonce (received : Received) : Handler Unit := do
  let hex := nonceHex received.verified
  let isNew ← (checkAndStore hex (nonceTtl received.requirements)).mapError
    .internal
  .lift (rejectIf (isNew = false) (.badRequest s!"nonce already used: {hex}"))

/-- `RateLimiter::check`: is the request allowed? -/
def rateLimiterCheck (key : String) (maxRequests windowSecs : Nat) :
    RepoM Bool := do
  let redisKey := s!"x402:rate:{key}"
  let connected : Except String Unit ← Prog.perform Op.redisConnect
  .lift connected
  let now : Micros ← Prog.perform Op.clock
  let nowMs := now / 1000
  let windowStart : Int := nowMs - windowSecs * 1000
  let counter : Nat ← Prog.perform Op.nextCounter
  let member := s!"{nowMs}:{counter}"
  let results : Except String (List Nat) ← Prog.perform (Op.redis
    (.slideWindow redisKey windowStart nowMs member
      (windowSecs * 2 % 2 ^ 64)))
  let counts ← .lift results
  let count := counts.head?.getD 0
  if count > maxRequests then
    -- over the limit: remove the entry just added
    let _ ← Prog.perform (Op.redis (.zrem redisKey member))
    return false
  else return true

/-- Step 9: the global rate limit. -/
def checkRateLimit : Handler Unit := do
  let allowed ← (rateLimiterCheck "global" config.rateLimitRps 1).mapError
    .internal
  .lift (rejectIf (allowed = false) .rateLimited)

/-- Step 10: reserve the spend, if an agent is named. -/
def reserveSpend (received : Received)
    (agentRules : Option (List GuardrailRule)) : Handler Unit :=
  match received.agentId with
  | none => return ()
  | some agentId => do
      let dailyLimit := agentRules.bind extractDailyLimit
      let spendOk ← (Repo.SpendLedger.recordSpendAtomic agentId
        received.sessionKeyId received.paymentAmount
        (nonceHex received.verified) dailyLimit).mapError .internal
      .lift (rejectIf (spendOk = false)
        (.guardrailViolation "MaxSpendPerDay exceeded (atomic check)"))
      match received.sessionKeyId with
      | none => return ()
      | some keyId =>
          (Repo.SessionKeys.incrementSpent keyId
            received.paymentAmount).mapError fun _ => .guardrailViolation
              "session key spend limit exceeded (concurrent check)"

/-- The event that ends a forwarded request. -/
def outcomeEvent (req : ProxyRequest) (received : Received)
    (eventType : AuditEventType) (status : Nat) : AuditEvent where
  agentId := received.agentId
  sessionKeyId := received.sessionKeyId
  eventType := eventType
  metadata := .object [("target_url", .string req.targetUrl),
    ("upstream_status", .ofNat status),
    ("payment_amount", .ofNat received.paymentAmount)]

/-- Report what became of the forwarded request. -/
def concludeForward (req : ProxyRequest) (received : Received) :
    HttpReply → Handler ProxyResponse
  | .notSent cause | .noResponse cause =>
      .throw (.internal s!"forward request failed: {cause}")
  | .response status body =>
      let body := body.getD .null
      if 200 ≤ status ∧ status < 300 then do
        emit (outcomeEvent req received .proxyRequestForwarded status)
        return ⟨true, none, "payment verified and request forwarded",
          some body⟩
      else do
        emit (outcomeEvent req received .proxyRequestFailed status)
        return ⟨false, none,
          s!"upstream returned {ext.formatStatus status}", some body⟩

/-- Step 11: forward the request to the target. -/
def forwardToTarget (req : ProxyRequest) (received : Received) :
    Handler ProxyResponse := do
  .lift (rejectIf (ext.isHeaderValue req.x402Payment = false)
    (.internal "forward request failed: builder error"))
  let reply : HttpReply ←
    Prog.perform (Op.httpGet req.targetUrl req.x402Payment)
  concludeForward ext req received reply

/-- Full x402 proxy flow. -/
def forwardRequest (req : ProxyRequest) : Handler ProxyResponse := do
  let received ← receivePayment ext req
  checkSessionKey ext received
  let agentRules ← checkGuardrails ext req received
  checkNonce received
  checkRateLimit config
  reserveSpend received agentRules
  forwardToTarget ext req received

end X402Guard
