/-
The client of the SDK.  A request is lost or it arrives; where it arrives the
layers and the handler run, and the response is lost, cut short or read.  After
a 429 and after a network error the client sends the request again, each time
after a longer delay.
-/
import X402Guard.ServedCalls
import X402Guard.ViolationErrors

namespace X402Guard.Sdk

open Interaction RuleForms ManagementApi

/-- What `fetch` or `json` throws. -/
structure Thrown where
  isTypeError : Bool
  message : String

/-- What becomes of a request. -/
inductive RequestTransit
  | arrived
  | failed (error : Thrown)

/-- What becomes of the response to it; one that is cut short has a status and
no body. -/
inductive ResponseTransit
  | arrived
  | cutShort (error : Thrown)
  | failed (error : Thrown)

/-- The operations of the proxy, and those of its clients. -/
inductive NetOp
  | proxy (op : Op)
  | request
  | response
  | sleep (delayMs : ℤ)

@[reducible] def NetReply : NetOp → Type
  | .proxy op => Reply op
  | .request => RequestTransit
  | .response => ResponseTransit
  | .sleep _ => Unit

abbrev Net (ε α : Type) := Prog NetOp NetReply ε α

/-- The proxy's operations among all. -/
def proxyOps : Embedding Op Reply NetOp NetReply where
  inject := .proxy
  reply _ reply := reply
  project
    | ⟨.proxy op, reply, order, time⟩ => some ⟨op, reply, order, time⟩
    | _ => none
  project_inject _ _ _ _ := rfl

/-- A response as its client sees it. -/
structure HttpResponse where
  status : ℕ
  /-- The `Retry-After` header. -/
  retryAfter : Option String
  /-- The answer, or the `error` of the body. -/
  body : Except (Option String) Response
  /-- What `json` throws, where it throws. -/
  unreadable : Option Thrown

/-- The configuration of a client, the proxy at its `baseUrl`, and what the two
use of their runtimes. -/
structure X402GuardClient where
  baseUrl : String
  apiKey : Option String
  maxRetries : ℕ
  retryBaseMs : ℕ
  retryBaseMs_ge : 100 ≤ retryBaseMs
  /-- `parseInt(text, 10)` of a number of seconds, or `NaN`. -/
  parseSecs : String → Option ℤ
  proxy : ManagementApi.AppConfig
  /-- `CreateSessionKeyRequest` out of a body. -/
  decodeSessionKey : Value → Option CreateSessionKeyRequest
  /-- `RevokeAllRequest` out of a body. -/
  decodeRevokeAll : Value → Option RevokeAllRequest
  /-- What `json` throws where a body is no JSON. -/
  syntaxError : Thrown

/-- What a method rejects with. -/
inductive ClientError
  | x402Guard (message : String) (statusCode : ℕ)
  | guardrailViolation (error : GuardrailViolationError)
  | proxyUnreachable (proxyUrl : String) (cause : Thrown)
  | thrown (error : Thrown)

namespace X402GuardClient

variable (ext : Externals) (config : X402Guard.AppConfig)
variable (client : X402GuardClient)

/-- The headers as the proxy reads them. -/
def headers : List (String × List UInt8) :=
  let apiKey := client.apiKey.getD ""
  if apiKey = "" then [] else [("x-api-key", utf8Bytes apiKey)]

/-- The proxy's side of a call: the layer of the key, the extraction of the
path and the body, which may reject with a status, and the handler. -/
def serve {ε : Type} (route : Route) (extracted : Except ℕ Request) :
    Net ε HttpResponse :=
  match createRouter client.proxy (fun _ _ => extracted) route
      ⟨client.headers, none, []⟩ with
  | .denied status body =>
      return ⟨status, none, .error ((body.get "error").bind Value.asStr), none⟩
  | .handled (.error status) =>
      return ⟨status, none, .error none, some client.syntaxError⟩
  | .handled (.ok request) => do
      match ← (handle ext config request).attempt.embed proxyOps with
      | .ok answer => return ⟨200, none, .ok answer, none⟩
      | .error error =>
          return ⟨error.response.1, none, .error (some error.response.2), none⟩

def fetch {ε : Type} (route : Route) (extracted : Except ℕ Request) :
    Net ε (Except Thrown HttpResponse) := do
  match (← Prog.perform NetOp.request : RequestTransit) with
  | .failed error => return .error error
  | .arrived => do
      let response ← client.serve ext config route extracted
      match (← Prog.perform NetOp.response : ResponseTransit) with
      | .arrived => return .ok response
      | .cutShort error =>
          return .ok { response with unreadable := some error }
      | .failed error => return .error error

/-- The seconds to wait after a 429; an empty header counts as none. -/
def retryAfterSecs (response : HttpResponse) : ℤ :=
  let header := response.retryAfter.getD ""
  if header = "" then 1 else (client.parseSecs header).getD 1

/-- The loop of `fetchWithRetry`, with so many retries left. -/
def attempts {ε : Type} (route : Route) (extracted : Except ℕ Request) :
    ℕ → Net ε (Except Thrown HttpResponse)
  | 0 => client.fetch ext config route extracted
  | retriesLeft + 1 => do
      let attempt := client.maxRetries - (retriesLeft + 1)
      match ← client.fetch ext config route extracted with
      | .ok response =>
          if response.status = 429 then do
            Prog.perform (NetOp.sleep
              (client.retryAfterSecs response * 1000 * 2 ^ attempt))
            attempts route extracted retriesLeft
          else return .ok response
      | .error error =>
          if error.isTypeError = true then do
            Prog.perform (NetOp.sleep (client.retryBaseMs * 2 ^ attempt))
            attempts route extracted retriesLeft
          else return .error error

def fetchWithRetry {ε : Type} (route : Route) (extracted : Except ℕ Request) :
    Net ε (Except Thrown HttpResponse) :=
  client.attempts ext config route extracted client.maxRetries

def request (route : Route) (extracted : Except ℕ Request) :
    Net ClientError Response := do
  match ← client.fetchWithRetry ext config route extracted with
  | .error error =>
      if error.isTypeError = true then
        .throw (.proxyUnreachable client.baseUrl error)
      else .throw (.thrown error)
  | .ok response =>
      match response.unreadable with
      | some error => .throw (.thrown error)
      | none =>
          match response.body with
          | .ok answer => return answer
          | .error error =>
              if response.status = 403 then
                .throw (.guardrailViolation
                  (GuardrailViolationError.fromApiResponse error))
              else
                .throw (.x402Guard (error.getD s!"HTTP {response.status}")
                  response.status)

end X402GuardClient

/-- A call of a method.  Bodies whose numbers or dates the proxy may refuse are
JSON. -/
inductive SdkCall
  | createAgent (req : CreateAgentRequest)
  | getAgent (id : String)
  | createRule (agentId : String) (rule : Value)
  | createSessionKey (agentId : String) (req : Value)
  | getSessionKey (agentId keyId : String)
  | revokeSessionKey (agentId keyId : String)
  | revokeAll (agentId : String) (req : Value)
  | proxyPayment (req : ProxyRequest)

namespace SdkCall

variable (ext : Externals) (config : X402Guard.AppConfig)
variable (client : X402GuardClient)

def route : SdkCall → Route
  | .createAgent _ => .managementRoute .createAgent
  | .getAgent _ => .managementRoute .getAgent
  | .createRule .. => .managementRoute .createRule
  | .createSessionKey .. => .managementRoute .createSessionKey
  | .getSessionKey .. => .managementRoute .getSessionKey
  | .revokeSessionKey .. => .managementRoute .revokeSessionKey
  | .revokeAll .. => .managementRoute .revokeAll
  | .proxyPayment _ => .publicRoute .forwardRequest

/-- What the proxy extracts from the path and the body. -/
def extracted : SdkCall → Except ℕ Request
  | .createAgent req => return .createAgent req
  | .getAgent id => return .getAgent (← okOr 400 (ext.parseUuid id))
  | .createRule agentId rule => do
      let agentId ← okOr 400 (ext.parseUuid agentId)
      let ruleType ← (decodeCreateRuleRequest rule).mapError fun _ => 422
      return .createRule agentId ruleType
  | .createSessionKey agentId req => do
      let agentId ← okOr 400 (ext.parseUuid agentId)
      let req ← okOr 422 (client.decodeSessionKey req)
      return .createSessionKey agentId req
  | .getSessionKey agentId keyId => do
      let agentId ← okOr 400 (ext.parseUuid agentId)
      return .getSessionKey agentId (← okOr 400 (ext.parseUuid keyId))
  | .revokeSessionKey agentId keyId => do
      let agentId ← okOr 400 (ext.parseUuid agentId)
      return .revokeSessionKey agentId (← okOr 400 (ext.parseUuid keyId))
  | .revokeAll agentId req => do
      let agentId ← okOr 400 (ext.parseUuid agentId)
      return .revokeAll agentId (← okOr 422 (client.decodeRevokeAll req))
  | .proxyPayment req => return .forwardRequest req

def run (call : SdkCall) : Net ClientError Response :=
  client.request ext config call.route (call.extracted ext client)

end SdkCall

end X402Guard.Sdk
