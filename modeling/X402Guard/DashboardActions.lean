/-
The server actions of the dashboard, as programs that call the proxy over the
network.  Every action asks the proxy for the agent and compares its owner with
the wallet of the session before it calls the proxy again to change anything;
between the two calls anything may happen.  The preview mode of a development
server, `DEV_SKIP_AUTH`, which leaves the comparison out, is not modelled.
-/
import X402Guard.ApiKeyGate
import X402Guard.ProxySystem
import X402Guard.RuleForms
import X402Guard.TraceLogic

namespace X402Guard

open Interaction

/-- The status and the text of the response to an error. -/
def AppError.response : AppError → Nat × String
  | .badRequest message => (400, message)
  | .unauthorized message => (401, message)
  | .forbidden message => (403, message)
  | .notFound message => (404, message)
  | .rateLimited => (429, "rate limit exceeded")
  | .guardrailViolation message => (403, message)
  | .internal _ => (500, "internal server error")

namespace DashboardActions

open RuleForms ManagementApi

/-- What becomes of a message: it arrives, or the caller gets an error. -/
inductive Transit
  | delivered
  | failed (message : Option String)

/-- The operations of the proxy, and those of the dashboard. -/
inductive WebOp
  | proxy (op : Op)
  | transit
  /-- `new Date()`, by the clock of the dashboard. -/
  | newDate
  /-- `supabase.auth.getUser()`. -/
  | getUser

@[reducible] def WebReply : WebOp → Type
  | .proxy op => Reply op
  | .transit => Transit
  | .newDate => Micros
  /- The user who is signed in, by the `wallet_address` of the session. -/
  | .getUser => Option (Option String)

abbrev Web := Prog WebOp WebReply FormFailure

/-- The proxy's operations among all. -/
def proxyOps : Embedding Op Reply WebOp WebReply where
  inject := .proxy
  reply _ reply := reply
  project
    | ⟨.proxy op, reply, order, time⟩ => some ⟨op, reply, order, time⟩
    | _ => none
  project_inject _ _ _ _ := rfl

/-- What the actions use of dates. -/
structure JsDates where
  Date : Type
  /-- `new Date(text)`. -/
  parse : String → Date
  /-- `date <= now`. -/
  notAfter : Date → Micros → Bool
  /-- `toISOString`, or the message of its `RangeError`. -/
  toISOString : Date → Except String String

/-- The dashboard's server: its environment, and the proxy it calls. -/
structure Site where
  js : JsNumbers
  dates : JsDates
  managementApiKey : String
  nodeEnv : String
  devSkipAuth : Option String
  toLowerCase : String → String
  proxy : ManagementApi.AppConfig
  /-- `DateTime<Utc>` out of a text. -/
  parseDateTime : String → Option Int

/-- What `fetch` gives. -/
inductive Fetched (α : Type)
  | threw (message : Option String)
  | notOk (status : Nat) (error : Option String)
  | ok (body : α)

variable (ext : Externals) (config : X402Guard.AppConfig) (site : Site)

namespace Site

/-- Is authentication skipped for a local preview? -/
def skipsAuth : Prop :=
  (site.nodeEnv = "development" ∨ site.nodeEnv = "test") ∧
    site.devSkipAuth = some "true"

instance : Decidable site.skipsAuth := inferInstanceAs (Decidable (_ ∧ _))

/-- The headers as the proxy reads them. -/
def headers : List (String × List UInt8) :=
  if site.managementApiKey = "" then []
  else [("x-api-key", utf8Bytes site.managementApiKey)]

/-- The proxy's side of a call: the layer of the key, the extraction of the
path and the body, which may reject with a status, and the handler. -/
def serve {α : Type} (route : ManagementRoute)
    (extracted : Except Nat (Handler α)) : Web (Fetched α) :=
  match createRouter site.proxy (fun _ _ => extracted)
      (.managementRoute route) ⟨site.headers, none, []⟩ with
  | .denied status body =>
      return .notOk status ((body.get "error").bind Value.asStr)
  | .handled (.error status) => return .notOk status none
  | .handled (.ok handler) => do
      match ← handler.attempt.embed proxyOps with
      | .ok body => return .ok body
      | .error error => return .notOk error.response.1 (some error.response.2)

/-- The request or the response may be lost. -/
def fetch {α : Type} (route : ManagementRoute)
    (extracted : Except Nat (Handler α)) : Web (Fetched α) := do
  match (← Prog.perform WebOp.transit : Transit) with
  | .failed message => return .threw message
  | .delivered => do
      let response ← site.serve route extracted
      match (← Prog.perform WebOp.transit : Transit) with
      | .failed message => return .threw message
      | .delivered => return response

/-- The wallet of the session. -/
def verifySession : Web (Option String) :=
  if site.skipsAuth then return some "0xdev"
  else do
    match (← Prog.perform WebOp.getUser : Option (Option String)) with
    | none => .throw .redirect
    | some wallet => return wallet

end Site

/-- `Path<Uuid>` of one id. -/
def extractId {α : Type} (text : String) (handler : Uuid → α) : Except Nat α :=
  (okOr 400 (ext.parseUuid text)).map handler

namespace Site

def assertAgentOwnership (agentId : String) : Web Unit :=
  if site.skipsAuth then return ()
  else do
    let walletAddress := (← site.verifySession).getD ""
    .lift (rejectIf (walletAddress = "")
      (.error "No wallet address in session"))
    match ← site.fetch .getAgent (extractId ext agentId getAgent) with
    | .threw _ => .throw (.error "Failed to verify agent ownership")
    | .notOk .. => .throw (.error "Agent not found")
    | .ok response => do
        let ownerAddress := (response.data.map Agent.ownerAddress).getD ""
        .lift (rejectIf (ownerAddress = "") (.error "Agent has no owner"))
        .lift (rejectIf (site.toLowerCase ownerAddress ≠
          site.toLowerCase walletAddress)
          (.error "You do not own this agent"))

/-- The call that changes something, and what the action makes of its
outcome. -/
def change {α : Type} (route : ManagementRoute)
    (extracted : Except Nat (Handler α)) : Web α := do
  match ← site.fetch route extracted with
  | .threw message => .throw (.error (message.getD "Network error"))
  | .notOk status error =>
      .throw (.error (error.getD s!"Failed: {status}"))
  | .ok body => return body

/-- The first checks of every action. -/
def authorize (agentId : String) (checks : Except FormFailure Unit) :
    Web Unit := do
  let _ ← site.verifySession
  .lift (rejectIf (Dashboard.isUuidText agentId = false)
    (.error "Invalid agent ID"))
  .lift checks
  site.assertAgentOwnership ext agentId

/-- The rule type and the parameters of the form. -/
def ruleForm (formData : List (String × String)) :
    Except FormFailure Value := do
  let ruleType := (formData.lookup "rule_type").getD ""
  let value := (formData.lookup "value").getD ""
  rejectIf (ruleType = "" ∨ value = "")
    (.error "Rule type and value are required")
  rejectIf (ruleType ∉ ["MaxSpendPerTx", "MaxSpendPerDay",
      "AllowedContracts", "MaxLeverage", "MaxSlippage"])
    (.error "Invalid rule type")
  let params ← (ruleParams site.js ruleType value).mapError FormFailure.error
  return .object [("rule_type", .string ruleType), ("rule_params", params)]

def createGuardrailRule (agentId : String)
    (formData : List (String × String)) : Web Unit := do
  site.authorize ext agentId (.ok ())
  let body ← .lift (site.ruleForm formData)
  let _ ← site.change .createRule do
    let agentId ← okOr 400 (ext.parseUuid agentId)
    let ruleType ← (decodeCreateRuleRequest body).mapError fun _ => 422
    return createRule agentId ruleType

def deleteGuardrailRule (agentId ruleId : String) : Web Unit := do
  site.authorize ext agentId (rejectIf (Dashboard.isUuidText ruleId = false)
    (.error "Invalid rule ID"))
  let _ ← site.change .deactivateRule do
    let agentId ← okOr 400 (ext.parseUuid agentId)
    let ruleId ← okOr 400 (ext.parseUuid ruleId)
    return deactivateRule agentId ruleId

/-- `CreateSessionKeyRequest` out of a body. -/
def decodeCreateSessionKeyRequest : Value → Option CreateSessionKeyRequest
  | .object fields => do
      let publicKey ← (← fields.lookup "public_key").asStr
      let maxSpend ← (← fields.lookup "max_spend").asU64
      let allowedContracts ← (← fields.lookup "allowed_contracts").toStrings
      let expiresAt ← site.parseDateTime
        (← (← fields.lookup "expires_at").asStr)
      return ⟨publicKey, maxSpend, allowedContracts, expiresAt⟩
  | _ => none

/-- The fields of the form, but for the date, which is compared with the
clock. -/
def keyForm (formData : List (String × String)) :
    Except FormFailure (String × site.js.Number × String) := do
  let publicKey := String.ofList
    (trim ((formData.lookup "public_key").getD "").toList)
  rejectIf (publicKey = "") (.error "Public key is required")
  let maxSpend := site.js.parseFloat ((formData.lookup "max_spend").getD "")
  rejectIf (site.js.isNaN maxSpend ∨ site.js.nonPositive maxSpend)
    (.error "Max spend must be a positive number")
  let expiresAt := (formData.lookup "expires_at").getD ""
  rejectIf (expiresAt = "") (.error "Expiration date is required")
  return (publicKey, maxSpend, expiresAt)

def createSessionKey (agentId : String)
    (formData : List (String × String)) : Web Unit := do
  site.authorize ext agentId (.ok ())
  let (publicKey, maxSpend, expiresAtText) ← .lift (site.keyForm formData)
  let expiresAt := site.dates.parse expiresAtText
  let now : Micros ← Prog.perform WebOp.newDate
  .lift (rejectIf (site.dates.notAfter expiresAt now)
    (.error "Expiration must be in the future"))
  let expiresAt ← .lift ((site.dates.toISOString expiresAt).mapError
    FormFailure.error)
  let body := Value.object [("public_key", .string publicKey),
    ("max_spend", site.js.toJson (site.js.minorUnits maxSpend)),
    ("allowed_contracts", .ofStrings
      (splitAddresses ((formData.lookup "allowed_contracts").getD ""))),
    ("expires_at", .string expiresAt)]
  let _ ← site.change .createSessionKey do
    let agentId ← okOr 400 (ext.parseUuid agentId)
    let req ← okOr 422 (site.decodeCreateSessionKeyRequest body)
    return X402Guard.createSessionKey ext agentId req

def revokeSessionKey (agentId keyId : String) : Web Unit := do
  site.authorize ext agentId (rejectIf (Dashboard.isUuidText keyId = false)
    (.error "Invalid key ID"))
  let _ ← site.change .revokeSessionKey do
    let agentId ← okOr 400 (ext.parseUuid agentId)
    let keyId ← okOr 400 (ext.parseUuid keyId)
    return X402Guard.revokeSessionKey agentId keyId

/-- The number of keys that were revoked. -/
def revokeAllSessionKeys (agentId ownerAddress : String) : Web Nat := do
  site.authorize ext agentId (rejectIf (ownerAddress = "")
    (.error "Owner address is required"))
  let response ← site.change .revokeAll (extractId ext agentId fun agentId =>
    revokeAll agentId ⟨ownerAddress, none, none⟩)
  return response.keysRevoked

end Site

inductive DashboardAction
  | createGuardrailRule (agentId : String) (formData : List (String × String))
  | deleteGuardrailRule (agentId ruleId : String)
  | createSessionKey (agentId : String) (formData : List (String × String))
  | revokeSessionKey (agentId keyId : String)
  | revokeAllSessionKeys (agentId ownerAddress : String)

namespace DashboardAction

/-- The agent of an action, as the client names it. -/
def agentId : DashboardAction → String
  | .createGuardrailRule agentId _ => agentId
  | .deleteGuardrailRule agentId _ => agentId
  | .createSessionKey agentId _ => agentId
  | .revokeSessionKey agentId _ => agentId
  | .revokeAllSessionKeys agentId _ => agentId

/-- The number of keys revoked, where the action tells it. -/
def run : DashboardAction → Web (Option Nat)
  | .createGuardrailRule agentId formData =>
      (fun _ => none) <$> site.createGuardrailRule ext agentId formData
  | .deleteGuardrailRule agentId ruleId =>
      (fun _ => none) <$> site.deleteGuardrailRule ext agentId ruleId
  | .createSessionKey agentId formData =>
      (fun _ => none) <$> site.createSessionKey ext agentId formData
  | .revokeSessionKey agentId keyId =>
      (fun _ => none) <$> site.revokeSessionKey ext agentId keyId
  | .revokeAllSessionKeys agentId ownerAddress =>
      some <$> site.revokeAllSessionKeys ext agentId ownerAddress

end DashboardAction

/-- A call of the dashboard, or a request that reaches a handler of the proxy by
another way. -/
inductive Client
  | action (action : DashboardAction)
  | direct (request : Request)

inductive Answer
  | acted (keysRevoked : Option Nat)
  | answered (result : Except AppError Response)

/-- What serves a client. -/
def serveClient : Client → Web Answer
  | .action action => .acted <$> action.run ext site
  | .direct request =>
      .answered <$> (handle ext config request).attempt.embed proxyOps

/-- What the environment decides of one operation. -/
structure WebOutcome where
  proxy : Outcome
  transit : Transit
  date : Micros
  user : Option (Option String)

/-- One proxy with its database, and the dashboards that talk to it. -/
def webSemantics : Semantics WebOp WebReply Shared WebOutcome Micros where
  perform
    | .proxy op, outcome, s => perform op outcome.proxy s
    | .transit, outcome, s => (outcome.transit, s)
    | .newDate, outcome, s => (outcome.date, s)
    | .getUser, outcome, s => (outcome.user, s)
  external := proxySemantics.external
  clock := proxySemantics.clock

end DashboardActions

end X402Guard
