/-
The form of the dashboard that creates a rule, and the decoder of the proxy
that its body is posted to.  The decoder reads a rule type out of an object
with its tag and its content; the form posts the two side by side.
-/
import Mathlib.Data.List.DropRight
import X402Guard.StoredRules

namespace X402Guard.RuleForms

-- Structs and enums are read out of objects; the arrays that `serde` also reads
-- them from are not among the bodies that are posted.

inductive DecodeError
  | missingField (field : String)
  | invalidType (expected : String)
  | unknownVariant (name : String)
deriving DecidableEq, Repr

/-- A field of a struct, read out of an object. -/
def decodeField {α : Type} (struct field expected : String)
    (decode : Value → Option α) : Value → Except DecodeError α
  | .object fields => do
      let value ← okOr (.missingField field) (fields.lookup field)
      okOr (.invalidType expected) (decode value)
  | _ => .error (.invalidType struct)

def ruleTypeVariants : List String :=
  ["MaxSpendPerTx", "MaxSpendPerDay", "AllowedContracts", "MaxLeverage",
    "MaxSlippage"]

/-- The content of the variant of the given name. -/
def decodeParams (name : String) (params : Value) :
    Except DecodeError RuleType :=
  let struct := s!"struct variant RuleType::{name}"
  if name = "MaxSpendPerTx" then
    .maxSpendPerTx <$> decodeField struct "limit" "u64" Value.asU64 params
  else if name = "MaxSpendPerDay" then
    .maxSpendPerDay <$> decodeField struct "limit" "u64" Value.asU64 params
  else if name = "AllowedContracts" then
    .allowedContracts <$>
      decodeField struct "addresses" "a sequence" Value.toStrings params
  else if name = "MaxLeverage" then
    .maxLeverage <$> decodeField struct "max" "u32"
      (fun value => value.asU64.bind u32TryFrom) params
  else
    .maxSlippage <$> decodeField struct "bps" "u32"
      (fun value => value.asU64.bind u32TryFrom) params

/-- `#[serde(tag = "type", content = "params")]`. -/
def decodeRuleType : Value → Except DecodeError RuleType
  | .object fields => do
      let tag ← okOr (.missingField "type") (fields.lookup "type")
      let name ← okOr (.invalidType "variant identifier") tag.asStr
      rejectIf (name ∉ ruleTypeVariants) (.unknownVariant name)
      let params ← okOr (.missingField "params") (fields.lookup "params")
      decodeParams name params
  | _ => .error (.invalidType "adjacently tagged enum RuleType")

/-- `CreateRuleRequest`. -/
def decodeCreateRuleRequest : Value → Except DecodeError RuleType
  | .object fields => do
      let ruleType ← okOr (.missingField "rule_type")
        (fields.lookup "rule_type")
      decodeRuleType ruleType
  | _ => .error (.invalidType "struct CreateRuleRequest")

theorem ruleTypeName_mem (ruleType : RuleType) :
    ruleTypeName ruleType ∈ ruleTypeVariants := by
  cases ruleType <;> simp [ruleTypeName, ruleTypeVariants]

/-- The body that the clients of the examples post. -/
def createRuleBody (ruleType : RuleType) : Value :=
  .object [("rule_type", .object [("type", .string (ruleTypeName ruleType)),
    ("params", ruleTypeParams ruleType)])]

/-- Tag and content under the names that the decoder looks up give the rule
type back. -/
theorem decodeCreateRuleRequest_createRuleBody {ruleType : RuleType}
    (h : ruleType.InRange) :
    decodeCreateRuleRequest (createRuleBody ruleType) = .ok ruleType := by
  have hparams : decodeCreateRuleRequest (createRuleBody ruleType) =
      decodeParams (ruleTypeName ruleType) (ruleTypeParams ruleType) := by
    change (do
      rejectIf (ruleTypeName ruleType ∉ ruleTypeVariants) _
      decodeParams (ruleTypeName ruleType) (ruleTypeParams ruleType)) = _
    rw [rejectIf, if_neg (not_not_intro (ruleTypeName_mem ruleType))]
    rfl
  rw [hparams]
  cases ruleType with
  | maxSpendPerTx limit => rfl
  | maxSpendPerDay limit => rfl
  | allowedContracts addresses =>
      change RuleType.allowedContracts <$>
        okOr _ (Value.ofStrings addresses).toStrings = Except.ok _
      rw [Value.toStrings_ofStrings]
      rfl
  | maxLeverage max =>
      change RuleType.maxLeverage <$> okOr _ (u32TryFrom max) = Except.ok _
      rw [u32TryFrom_eq_some_iff.mpr ⟨h, rfl⟩]
      rfl
  | maxSlippage bps =>
      change RuleType.maxSlippage <$> okOr _ (u32TryFrom bps) = Except.ok _
      rw [u32TryFrom_eq_some_iff.mpr ⟨h, rfl⟩]
      rfl

/-- A name in the place of the rule type is refused, whatever stands beside
it. -/
theorem decodeCreateRuleRequest_name (name : String)
    (fields : List (String × Value)) :
    decodeCreateRuleRequest
        (.object (("rule_type", .string name) :: fields)) =
      .error (.invalidType "adjacently tagged enum RuleType") :=
  rfl

/-- What the form uses of JavaScript's numbers. -/
structure JsNumbers where
  Number : Type
  parseFloat : String → Number
  /-- `parseInt(text, 10)`. -/
  parseInt : String → Number
  isNaN : Number → Bool
  nonPositive : Number → Bool
  belowOne : Number → Bool
  /-- `Math.round(amount * 1_000_000)`. -/
  minorUnits : Number → Number
  /-- What `JSON.stringify` writes. -/
  toJson : Number → Value

/-- Numbers as they are read from decimal digits. -/
def JsNumbers.digits : JsNumbers where
  Number := Option Nat
  parseFloat := parseU64
  parseInt := parseU64
  isNaN number := number = none
  nonPositive number := number = some 0
  belowOne number := number = some 0
  minorUnits number := number.map (· * 1000000)
  toJson number := (number.map Value.ofNat).getD .null

/-- The white space that `String.prototype.trim` takes off. -/
def isJsSpace (c : Char) : Bool :=
  let code := c.toNat
  (9 ≤ code && code ≤ 13) || code = 0x20 || code = 0xa0 || code = 0x1680 ||
    (0x2000 ≤ code && code ≤ 0x200a) || code = 0x2028 || code = 0x2029 ||
    code = 0x202f || code = 0x205f || code = 0x3000 || code = 0xfeff

def trim (chars : List Char) : List Char :=
  (chars.dropWhile isJsSpace).rdropWhile isJsSpace

/-- The addresses of a comma-separated value. -/
def splitAddresses (value : String) : List String :=
  (((value.toList.splitOn ',').map trim).filter (· ≠ [])).map String.ofList

/-- The parameters that the form computes, or the error it shows. -/
def ruleParams (js : JsNumbers) (ruleType value : String) :
    Except String Value :=
  if ruleType = "MaxSpendPerTx" ∨ ruleType = "MaxSpendPerDay" then do
    let amount := js.parseFloat value
    rejectIf (js.isNaN amount ∨ js.nonPositive amount)
      "Amount must be a positive number"
    return .object [("limit", js.toJson (js.minorUnits amount))]
  else if ruleType = "AllowedContracts" then do
    let addresses := splitAddresses value
    rejectIf (addresses.length = 0) "At least one contract address required"
    return .object [("addresses", .ofStrings addresses)]
  else if ruleType = "MaxLeverage" then do
    let max := js.parseInt value
    rejectIf (js.isNaN max ∨ js.belowOne max)
      "Leverage must be a positive integer"
    return .object [("max", js.toJson max)]
  else if ruleType = "MaxSlippage" then do
    let bps := js.parseInt value
    rejectIf (js.isNaN bps ∨ js.belowOne bps)
      "Slippage must be at least 1 basis point"
    return .object [("bps", js.toJson bps)]
  else .error "Unknown rule type"

/-- What becomes of `GET /api/v1/agents/{id}`. -/
inductive AgentReply
  /-- The request fails, or its body is not what is expected. -/
  | threw
  | notOk
  | agent (ownerAddress : Option String)

/-- What becomes of `POST /api/v1/agents/{id}/rules`. -/
inductive RuleReply
  | threw (message : Option String)
  | notOk (status : Nat) (error : Option String)
  | ok

structure PostRequest where
  url : String
  headers : List (String × String)
  body : Value

/-- What the action reads besides its form. -/
structure Dashboard where
  js : JsNumbers
  proxyBase : String
  managementApiKey : String
  nodeEnv : String
  devSkipAuth : Option String
  /-- The user who is signed in, by the `wallet_address` of the session. -/
  user : Option (Option String)
  toLowerCase : String → String
  getAgent : String → AgentReply
  post : PostRequest → RuleReply

/-- How the action ends when it does not succeed. -/
inductive FormFailure
  | error (message : String)
  /-- `redirect('/login')`. -/
  | redirect
deriving DecidableEq, Repr

namespace Dashboard

variable (dashboard : Dashboard)

/-- Is authentication skipped for a local preview? -/
def skipsAuth : Prop :=
  (dashboard.nodeEnv = "development" ∨ dashboard.nodeEnv = "test") ∧
    dashboard.devSkipAuth = some "true"

instance : Decidable dashboard.skipsAuth :=
  inferInstanceAs (Decidable (_ ∧ _))

/-- The wallet of the session. -/
def verifySession : Except FormFailure (Option String) :=
  if dashboard.skipsAuth then .ok (some "0xdev")
  else okOr .redirect dashboard.user

def assertAgentOwnership (agentId : String) :
    Except FormFailure Unit := do
  if dashboard.skipsAuth then return ()
  let walletAddress := (← dashboard.verifySession).getD ""
  rejectIf (walletAddress = "") (.error "No wallet address in session")
  match dashboard.getAgent agentId with
  | .threw => .error (.error "Failed to verify agent ownership")
  | .notOk => .error (.error "Agent not found")
  | .agent ownerAddress =>
      let ownerAddress := ownerAddress.getD ""
      rejectIf (ownerAddress = "") (.error "Agent has no owner")
      rejectIf (dashboard.toLowerCase ownerAddress ≠
        dashboard.toLowerCase walletAddress)
        (.error "You do not own this agent")

/-- `UUID_RE`. -/
def isUuidText (text : String) : Bool :=
  let groups := text.toList.splitOn '-'
  groups.map List.length = [8, 4, 4, 4, 12] &&
    groups.all (·.all fun c => c.isDigit || ('a' ≤ c && c ≤ 'f') ||
      ('A' ≤ c && c ≤ 'F'))

def apiHeaders : List (String × String) :=
  ("Content-Type", "application/json") ::
    if dashboard.managementApiKey = "" then []
    else [("X-Api-Key", dashboard.managementApiKey)]

/-- The request that `createGuardrailRule` sends, or why it sends none. -/
def ruleRequest (agentId : String) (formData : List (String × String)) :
    Except FormFailure PostRequest := do
  let _ ← dashboard.verifySession
  rejectIf (isUuidText agentId = false) (.error "Invalid agent ID")
  dashboard.assertAgentOwnership agentId
  let ruleType := (formData.lookup "rule_type").getD ""
  let value := (formData.lookup "value").getD ""
  rejectIf (ruleType = "" ∨ value = "")
    (.error "Rule type and value are required")
  rejectIf (ruleType ∉ ["MaxSpendPerTx", "MaxSpendPerDay",
      "AllowedContracts", "MaxLeverage", "MaxSlippage"])
    (.error "Invalid rule type")
  let params ← (ruleParams dashboard.js ruleType value).mapError
    FormFailure.error
  return ⟨s!"{dashboard.proxyBase}/api/v1/agents/{agentId}/rules",
    dashboard.apiHeaders,
    .object [("rule_type", .string ruleType), ("rule_params", params)]⟩

def createGuardrailRule (agentId : String)
    (formData : List (String × String)) : Except FormFailure Unit := do
  let request ← dashboard.ruleRequest agentId formData
  match dashboard.post request with
  | .threw message => .error (.error (message.getD "Network error"))
  | .notOk status error => .error (.error (error.getD s!"Failed: {status}"))
  | .ok => return ()

/-- The dashboard of a user who owns the agents. -/
def owner : Dashboard where
  js := .digits
  proxyBase := "http://localhost:3402"
  managementApiKey := "key"
  nodeEnv := "production"
  devSkipAuth := none
  user := some (some "0xa1")
  toLowerCase text := String.ofList (text.toList.map Char.toLower)
  getAgent _ := .agent (some "0xA1")
  post _ := .notOk 422 none

/-- The proxy reads out of the request the rule type of the name in the form,
with the parameters that were computed from it. -/
def Carries (formData : List (String × String)) (request : PostRequest) :
    Prop :=
  ∃ ruleType, decodeCreateRuleRequest request.body = .ok ruleType ∧
    formData.lookup "rule_type" = some (ruleTypeName ruleType) ∧
    ruleParams dashboard.js (ruleTypeName ruleType)
      ((formData.lookup "value").getD "") = .ok (ruleTypeParams ruleType)

variable {dashboard} {agentId : String} {formData : List (String × String)}
  {request : PostRequest}

/-- The form posts the name and the parameters as two fields of the body. -/
theorem ruleRequest_body
    (h : dashboard.ruleRequest agentId formData = .ok request) :
    ∃ ruleType params,
      formData.lookup "rule_type" = some ruleType ∧
      ruleParams dashboard.js ruleType
        ((formData.lookup "value").getD "") = .ok params ∧
      request.body =
        .object [("rule_type", .string ruleType), ("rule_params", params)] := by
  simp only [ruleRequest, except_bind_eq_ok, rejectIf_eq_ok_iff,
    mapError_eq_ok_iff] at h
  obtain ⟨_, _, _, _, _, _, _, hgiven, _, _, params, hparams, ⟨⟩⟩ := h
  cases hlookup : formData.lookup "rule_type" with
  | none => exact absurd (.inl (by rw [hlookup]; rfl)) hgiven
  | some ruleType =>
      rw [hlookup] at hparams
      exact ⟨ruleType, params, rfl, hparams, by rfl⟩

theorem decode_body
    (h : dashboard.ruleRequest agentId formData = .ok request) :
    decodeCreateRuleRequest request.body =
      .error (.invalidType "adjacently tagged enum RuleType") := by
  obtain ⟨ruleType, params, _, _, hbody⟩ := ruleRequest_body h
  rw [hbody, decodeCreateRuleRequest_name]

theorem not_carries_of_refused {error : DecodeError}
    (h : decodeCreateRuleRequest request.body = .error error) :
    ¬ dashboard.Carries formData request := by
  rintro ⟨ruleType, hread, _⟩
  rw [h] at hread
  cases hread

/-- No form that is accepted is carried to the proxy: the decoder refuses
every body that is posted. -/
theorem ruleRequest_refused
    (h : dashboard.ruleRequest agentId formData = .ok request) :
    decodeCreateRuleRequest request.body =
        .error (.invalidType "adjacently tagged enum RuleType") ∧
      ¬ dashboard.Carries formData request :=
  ⟨decode_body h, not_carries_of_refused (decode_body h)⟩

/-- The owner of an agent limits its payments to 25 units. -/
theorem exists_spendLimit_request : ∃ request,
    owner.ruleRequest "00000000-0000-4000-8000-000000000001"
      [("rule_type", "MaxSpendPerTx"), ("value", "25")] = .ok request := by
  have hok : (owner.ruleRequest
      "00000000-0000-4000-8000-000000000001"
      [("rule_type", "MaxSpendPerTx"), ("value", "25")]).isOk = true := by
    decide
  cases h : owner.ruleRequest "00000000-0000-4000-8000-000000000001"
      [("rule_type", "MaxSpendPerTx"), ("value", "25")] with
  | error failure =>
      rw [h] at hok
      cases hok
  | ok request => exact ⟨request, rfl⟩

theorem ruleRequest_refused_spendLimit : ∃ request,
    owner.ruleRequest "00000000-0000-4000-8000-000000000001"
        [("rule_type", "MaxSpendPerTx"), ("value", "25")] = .ok request ∧
      decodeCreateRuleRequest request.body =
        .error (.invalidType "adjacently tagged enum RuleType") ∧
      ¬ owner.Carries
        [("rule_type", "MaxSpendPerTx"), ("value", "25")] request := by
  obtain ⟨request, h⟩ := exists_spendLimit_request
  exact ⟨request, h, ruleRequest_refused h⟩

/-- The form is accepted, its limit is computed, and the proxy cannot read
the body. -/
theorem spendLimit_not_carried :
    ruleParams .digits "MaxSpendPerTx" "25" =
        .ok (.object [("limit", .ofNat 25000000)]) ∧
      ∃ request,
        owner.ruleRequest "00000000-0000-4000-8000-000000000001"
            [("rule_type", "MaxSpendPerTx"), ("value", "25")] =
          .ok request ∧
        ¬ owner.Carries
          [("rule_type", "MaxSpendPerTx"), ("value", "25")] request := by
  refine ⟨rfl, ?_⟩
  obtain ⟨request, h⟩ := exists_spendLimit_request
  exact ⟨request, h, not_carries_of_refused (decode_body h)⟩

/-- So no rule is ever created, where the proxy answers a body that it cannot
read with an error. -/
theorem createGuardrailRule_ne_ok
    (hpost : ∀ request error,
      decodeCreateRuleRequest request.body = .error error →
        dashboard.post request ≠ .ok) :
    dashboard.createGuardrailRule agentId formData ≠ .ok () := by
  rw [createGuardrailRule, ne_eq, except_bind_eq_ok]
  rintro ⟨request, hrequest, hanswer⟩
  cases hreply : dashboard.post request with
  | threw message => simp [hreply] at hanswer
  | notOk status error => simp [hreply] at hanswer
  | ok => exact hpost request _ (decode_body hrequest) hreply

end Dashboard

end X402Guard.RuleForms
