/-
The proxy as a system: any number of requests of any kind, in flight at the
same time over one database, one Redis and one clock.
-/
import X402Guard.CallReplay
import X402Guard.ManagementHandlers

namespace X402Guard

open Interaction

inductive Request
  | forwardRequest (req : ProxyRequest)
  | createAgent (req : CreateAgentRequest)
  | getAgent (id : Uuid)
  | createRule (agentId : Uuid) (ruleType : RuleType)
  | updateRule (agentId ruleId : Uuid) (ruleType : RuleType) (isActive : Bool)
  | deactivateRule (agentId ruleId : Uuid)
  | createSessionKey (agentId : Uuid) (req : CreateSessionKeyRequest)
  | getSessionKey (agentId keyId : Uuid)
  | revokeSessionKey (agentId keyId : Uuid)
  | revokeAll (agentId : Uuid) (req : RevokeAllRequest)

inductive Response
  | forwarded (response : ProxyResponse)
  | agent (response : DataResponse Agent)
  | rule (response : DataResponse GuardrailRule)
  | sessionKey (response : DataResponse SessionKey)
  | revokedAll (response : RevokeAllResponse)

/-- The router. -/
def handle (ext : Externals) (config : AppConfig) : Request → Handler Response
  | .forwardRequest req => .forwarded <$> forwardRequest ext config req
  | .createAgent req => .agent <$> createAgent req
  | .getAgent id => .agent <$> getAgent id
  | .createRule agentId ruleType => .rule <$> createRule agentId ruleType
  | .updateRule agentId ruleId ruleType isActive =>
      .rule <$> updateRuleWithBody agentId ruleId ruleType isActive
  | .deactivateRule agentId ruleId => .rule <$> deactivateRule agentId ruleId
  | .createSessionKey agentId req =>
      .sessionKey <$> createSessionKey ext agentId req
  | .getSessionKey agentId keyId => .sessionKey <$> getSessionKey agentId keyId
  | .revokeSessionKey agentId keyId =>
      .sessionKey <$> revokeSessionKey agentId keyId
  | .revokeAll agentId req => .revokedAll <$> revokeAll agentId req

/-! ### A sample deployment

One service on Base Sepolia that asks 60 USDC, and two authorizations of one
signer for it.  The third-party functions agree with the real ones on these
inputs. -/

namespace Sample

inductive Which
  | first
  | second
deriving DecidableEq

def signer : Address := 0xf39Fd6e51aad88F6F4ce6aB8827279cffFb92266
def service : Address := 0x742d35Cc6634C0532925a3b844Bc454e4438f44e

def signerText : String := "0xf39Fd6e51aad88F6F4ce6aB8827279cffFb92266"
def serviceText : String := "0x742d35Cc6634C0532925a3b844Bc454e4438f44e"
def usdcText : String := "0x036CbD53842c5426634e7929541eC2318f3dCF7e"
def url : String := "https://api.example.com/data"

def requirementsHeader : String :=
  "eyJzY2hlbWUiOiJleGFjdCIsIm5ldHdvcmsiOiJiYXNlLXNlcG9saWEiLCJtYXhBbW" ++
  "91bnRSZXF1aXJlZCI6IjYwMDAwMDAwIiwicmVzb3VyY2UiOiJodHRwczovL2FwaS5l" ++
  "eGFtcGxlLmNvbS9kYXRhIiwicGF5VG8iOiIweDc0MmQzNUNjNjYzNEMwNTMyOTI1YT" ++
  "NiODQ0QmM0NTRlNDQzOGY0NGUiLCJtYXhUaW1lb3V0U2Vjb25kcyI6NjAsImFzc2V0" ++
  "IjoiMHgwMzZDYkQ1Mzg0MmM1NDI2NjM0ZTc5Mjk1NDFlQzIzMThmM2RDRjdlIn0"

def requirements : PaymentRequirements where
  scheme := "exact"
  network := "base-sepolia"
  maxAmountRequired := "60000000"
  resource := url
  payTo := serviceText
  maxTimeoutSeconds := 60
  asset := usdcText
  extra := .null

def nonceText : Which → String
  | .first =>
    "0x0101010101010101010101010101010101010101010101010101010101010101"
  | .second =>
    "0x0202020202020202020202020202020202020202020202020202020202020202"

def nonce : Which → Bytes32
  | .first => ⟨List.replicate 32 1, by simp⟩
  | .second => ⟨List.replicate 32 2, by simp⟩

def signatureText : Which → String
  | .first =>
    "0x2b751ccc12254551d21b223d134c897b0659cf0a2735cc64c6019bebf4a1baee" ++
    "253a0473b28c87e1e6161286cfbde125b434eb55a9ea495a784bbb28156c62071b"
  | .second =>
    "0xe32d64288f330cf82da4e59a91a35483c48798b768410bc7bfdb77dcc4234430" ++
    "4dc23917e41cc8845a987277cdfe40c71df0c9fc6d6159f7f1962e0d742289431c"

def paymentHeader : Which → String
  | .first =>
    "eyJzY2hlbWUiOiJleGFjdCIsIm5ldHdvcmsiOiJiYXNlLXNlcG9saWEiLCJwYXlsb2" ++
    "FkIjp7InNpZ25hdHVyZSI6IjB4MmI3NTFjY2MxMjI1NDU1MWQyMWIyMjNkMTM0Yzg5" ++
    "N2IwNjU5Y2YwYTI3MzVjYzY0YzYwMTliZWJmNGExYmFlZTI1M2EwNDczYjI4Yzg3ZT" ++
    "FlNjE2MTI4NmNmYmRlMTI1YjQzNGViNTVhOWVhNDk1YTc4NGJiYjI4MTU2YzYyMDcx" ++
    "YiIsImF1dGhvcml6YXRpb24iOnsiZnJvbSI6IjB4ZjM5RmQ2ZTUxYWFkODhGNkY0Y2" ++
    "U2YUI4ODI3Mjc5Y2ZmRmI5MjI2NiIsInRvIjoiMHg3NDJkMzVDYzY2MzRDMDUzMjky" ++
    "NWEzYjg0NEJjNDU0ZTQ0MzhmNDRlIiwidmFsdWUiOiI2MDAwMDAwMCIsInZhbGlkQW" ++
    "Z0ZXIiOiIxNzAwMDAwMDAwIiwidmFsaWRCZWZvcmUiOiIxNzAwMDg2NDAwIiwibm9u" ++
    "Y2UiOiIweDAxMDEwMTAxMDEwMTAxMDEwMTAxMDEwMTAxMDEwMTAxMDEwMTAxMDEwMT" ++
    "AxMDEwMTAxMDEwMTAxMDEwMTAxMDEifX19"
  | .second =>
    "eyJzY2hlbWUiOiJleGFjdCIsIm5ldHdvcmsiOiJiYXNlLXNlcG9saWEiLCJwYXlsb2" ++
    "FkIjp7InNpZ25hdHVyZSI6IjB4ZTMyZDY0Mjg4ZjMzMGNmODJkYTRlNTlhOTFhMzU0" ++
    "ODNjNDg3OThiNzY4NDEwYmM3YmZkYjc3ZGNjNDIzNDQzMDRkYzIzOTE3ZTQxY2M4OD" ++
    "Q1YTk4NzI3N2NkZmU0MGM3MWRmMGM5ZmM2ZDYxNTlmN2YxOTYyZTBkNzQyMjg5NDMx" ++
    "YyIsImF1dGhvcml6YXRpb24iOnsiZnJvbSI6IjB4ZjM5RmQ2ZTUxYWFkODhGNkY0Y2" ++
    "U2YUI4ODI3Mjc5Y2ZmRmI5MjI2NiIsInRvIjoiMHg3NDJkMzVDYzY2MzRDMDUzMjky" ++
    "NWEzYjg0NEJjNDU0ZTQ0MzhmNDRlIiwidmFsdWUiOiI2MDAwMDAwMCIsInZhbGlkQW" ++
    "Z0ZXIiOiIxNzAwMDAwMDAwIiwidmFsaWRCZWZvcmUiOiIxNzAwMDg2NDAwIiwibm9u" ++
    "Y2UiOiIweDAyMDIwMjAyMDIwMjAyMDIwMjAyMDIwMjAyMDIwMjAyMDIwMjAyMDIwMj" ++
    "AyMDIwMjAyMDIwMjAyMDIwMjAyMDIifX19"

def payment (which : Which) : PaymentPayload where
  scheme := "exact"
  network := "base-sepolia"
  payload := {
    signature := signatureText which
    authorization := {
      «from» := signerText
      «to» := serviceText
      value := "60000000"
      validAfter := "1700000000"
      validBefore := "1700086400"
      nonce := nonceText which } }

def transfer (which : Which) : TransferWithAuthorization :=
  ⟨signer, service, 60_000_000, 1_700_000_000, 1_700_086_400, nonce which⟩

def digestText : Which → String
  | .first =>
    "98ec3a006ca872ab6d0a8bb60f22659cc5f527d5b79b0375a752543cff8a3466"
  | .second =>
    "2b9cca18ccb1e884ffe216da14df08fb23ff0220c7d640c2b121fd2b5c6a385e"

/-- The EIP-712 signing hash of the transfer. -/
def digest (which : Which) : Bytes32 :=
  (parseBytes32 (digestText which)).toOption.getD .zero

def signature (which : Which) : PrimitiveSignature :=
  ⟨(hexDecode (utf8Bytes (String.ofList
    (trimStart0x (signatureText which).toList)))).toOption.getD []⟩

/-- A hex number of the given number of bytes. -/
def parseHex (bytes : Nat) (digits : List Char) : Option Nat :=
  match hexDecode (utf8Bytes (String.ofList digits)) with
  | .ok decoded =>
      if decoded.length = bytes then
        some (decoded.foldl (fun acc byte => 256 * acc + byte.toNat) 0)
      else none
  | .error _ => none

def parseAddress (text : String) : Option Address :=
  let digits := match text.toList with
    | '0' :: 'x' :: rest => rest
    | all => all
  (parseHex 20 digits).map (BitVec.ofNat 160)

def parseUuid (text : String) : Option Uuid :=
  (parseHex 16 (text.toList.filter (· ≠ '-'))).map (BitVec.ofNat 128)

def externals : Externals where
  parseUrl text :=
    if text = url then
      some ⟨"https", "", none, some "api.example.com", none, "/data"⟩
    else none
  parseUuid := parseUuid
  toLowercase := String.toLower
  formatAddress address :=
    if address = Usdc.baseSepolia then usdcText
    else if address = signer then signerText
    else serviceText
  decodeRequirements header :=
    if header = requirementsHeader then .ok requirements
    else .error "invalid base64url in X-Payment-Requirements"
  decodePayload header :=
    if header = paymentHeader .first then .ok (payment .first)
    else if header = paymentHeader .second then .ok (payment .second)
    else .error "invalid base64url in X-Payment"
  parseAddress := parseAddress
  parseU256 text := (parseU64 text).map (BitVec.ofNat 256)
  parseSignature bytes := if bytes.length = 65 then some ⟨bytes⟩ else none
  signingHash data domain :=
    if domain ≠ usdcEip712Domain Usdc.baseSepolia 84532 then .zero
    else if data = transfer .first then digest .first
    else if data = transfer .second then digest .second
    else .zero
  recoverAddress candidate hash :=
    if (candidate = signature .first ∧ hash = digest .first) ∨
        (candidate = signature .second ∧ hash = digest .second) then
      some signer
    else none
  isHeaderValue _ := true
  parseIpAddr _ := none
  formatStatus _ := "200 OK"
  formatRfc3339 _ := "2023-11-15T22:13:20+00:00"

def config : AppConfig := ⟨1000⟩

def agentText : String := "aaaaaaaa-aaaa-4aaa-8aaa-aaaaaaaaaaaa"
def keyText : String := "bbbbbbbb-bbbb-4bbb-8bbb-bbbbbbbbbbbb"
def agentId : Uuid := 0xaaaaaaaaaaaa4aaa8aaaaaaaaaaaaaaa
def keyId : Uuid := 0xbbbbbbbbbbbb4bbb8bbbbbbbbbbbbbbb
def ruleId : Uuid := 0xcccccccccccc4ccc8ccccccccccccccc

/-- A request with one of the authorizations, for the agent, the key, both or
neither. -/
def request (which : Which) (forAgent withKey : Bool) : ProxyRequest where
  targetUrl := url
  x402Payment := paymentHeader which
  x402Requirements := requirementsHeader
  agentId := if forAgent then some agentText else none
  sessionKeyId := if withKey then some keyText else none

/-- What the first steps make of it while the authorization is valid. -/
def received (which : Which) (forAgent withKey : Bool) : Received where
  requirements := requirements
  verified := ⟨signer, service, 60_000_000, nonce which, "base-sepolia"⟩
  agentId := if forAgent then some agentId else none
  sessionKeyId := if withKey then some keyId else none
  paymentAmount := 60_000_000

theorem parseOptionalId_sample {text : String} {id : Uuid}
    (hparse : externals.parseUuid text = some id) (given : Bool)
    (message : String) :
    parseOptionalId externals message (if given then some text else none) =
      .ok (if given then some id else none) := by
  cases given <;> simp [parseOptionalId, hparse, okOr, Except.map]

theorem decodePayload_sample (which : Which) :
    externals.decodePayload (paymentHeader which) = .ok (payment which) := by
  have hne : paymentHeader .second ≠ paymentHeader .first := by
    decide +kernel
  cases which with
  | first => simp only [externals, ↓reduceIte]
  | second => simp only [externals, hne, ↓reduceIte]

theorem nonce_ne : nonce .second ≠ nonce .first := by
  intro h
  have hbytes := congrArg (fun nonce => nonce.bytes.head?) h
  exact absurd hbytes (by decide)

/-- The signer of either authorization is recovered. -/
theorem recoverAddress_sample (which : Which) :
    externals.recoverAddress (signature which)
      (externals.signingHash (transfer which)
        (usdcEip712Domain Usdc.baseSepolia 84532)) = some signer := by
  have hne : transfer .second ≠ transfer .first := by
    intro h
    exact nonce_ne (congrArg (·.nonce) h)
  cases which with
  | first =>
      have hhash : externals.signingHash (transfer .first)
          (usdcEip712Domain Usdc.baseSepolia 84532) = digest .first := by
        simp [externals]
      rw [hhash]
      simp only [externals, and_self, true_or, ↓reduceIte]
  | second =>
      have hhash : externals.signingHash (transfer .second)
          (usdcEip712Domain Usdc.baseSepolia 84532) = digest .second := by
        simp [externals, hne]
      rw [hhash]
      simp only [externals, and_self, or_true, ↓reduceIte]

theorem toList_of_eq_append {text first second : String}
    {chars chars' : List Char} (h : text = first ++ second)
    (hfirst : first = String.ofList chars)
    (hsecond : second = String.ofList chars') :
    text.toList = chars ++ chars' := by
  rw [h, String.toList_append, toList_of_eq_ofList hfirst,
    toList_of_eq_ofList hsecond]

/-- The texts that all requests share, parsed. -/
theorem texts_parsed :
    parseAddress signerText = some signer ∧
    parseAddress serviceText = some service ∧
    externals.parseU256 "60000000" = some 60_000_000 ∧
    u64OfU256 60_000_000 = some 60_000_000 ∧
    parseU64 "1700000000" = some 1_700_000_000 ∧
    parseU64 "1700086400" = some 1_700_086_400 ∧
    externals.parseUuid agentText = some agentId ∧
    externals.parseUuid keyText = some keyId ∧
    ¬ ("60000000".startsWith "0x" = true ∨
      "60000000".startsWith "0X" = true) := by
  have hsigner := toList_of_eq_ofList (rfl : signerText = _)
  have hservice := toList_of_eq_ofList (rfl : serviceText = _)
  simp only [parseAddress, hsigner, hservice]
  decide +kernel

/-- A hex text of 65 bytes is the text of the signature it decodes to. -/
theorem signature_parsed {text : String} {signature : PrimitiveSignature}
    (hsignature : signature = ⟨(hexDecode (utf8Bytes (String.ofList
      (trimStart0x text.toList)))).toOption.getD []⟩)
    (hdecoded : (hexDecode (utf8Bytes (String.ofList
      (trimStart0x text.toList)))).map List.length = .ok 65) :
    hexDecode (utf8Bytes (String.ofList (trimStart0x text.toList))) =
      .ok signature.bytes ∧
    externals.parseSignature signature.bytes = some signature := by
  subst hsignature
  cases hbytes : hexDecode (utf8Bytes (String.ofList
      (trimStart0x text.toList))) with
  | error error =>
      rw [hbytes] at hdecoded
      cases hdecoded
  | ok bytes =>
      rw [hbytes] at hdecoded
      have hlength : bytes.length = 65 := Except.ok.inj hdecoded
      exact ⟨rfl, if_pos hlength⟩

/-- The texts of one payment, parsed. -/
theorem payment_parsed (which : Which) :
    parseBytes32 (nonceText which) = .ok (nonce which) ∧
    hexDecode (utf8Bytes (String.ofList
      (trimStart0x (signatureText which).toList))) =
      .ok (signature which).bytes ∧
    externals.parseSignature (signature which).bytes =
      some (signature which) := by
  cases which with
  | first =>
      constructor
      · rw [parseBytes32, toList_of_eq_ofList (rfl : nonceText .first = _)]
        decide
      · apply signature_parsed rfl
        rw [toList_of_eq_append (rfl : signatureText .first = _) rfl rfl]
        decide +kernel
  | second =>
      constructor
      · rw [parseBytes32, toList_of_eq_ofList (rfl : nonceText .second = _)]
        decide
      · apply signature_parsed rfl
        rw [toList_of_eq_append (rfl : signatureText .second = _) rfl rfl]
        decide +kernel

theorem verifyPayment_sample (which : Which) {nowSecs : Nat}
    (hafter : 1_700_000_000 ≤ nowSecs) (hbefore : nowSecs < 1_700_086_400) :
    verifyPayment externals requirements (payment which) nowSecs =
      .ok (received which false false).verified := by
  obtain ⟨hsigner, hservice, hvalue, _, hvalidAfter, hvalidBefore, _, _,
    hdecimal⟩ := texts_parsed
  obtain ⟨hnonce, hsignature, hlength⟩ := payment_parsed which
  have hparse : externals.parseAddress = parseAddress := rfl
  have hrecover := recoverAddress_sample which
  simp only [transfer] at hrecover
  simp only [verifyPayment, except_bind_eq_ok, okOr_eq_ok_iff,
    rejectIf_eq_ok_iff, mapError_eq_ok_iff, exists_and_left, exists_const,
    payment, requirements, hparse, hsigner, hservice, hvalue, hvalidAfter,
    hvalidBefore, hnonce, hsignature, hdecimal, hlength, Option.some.injEq,
    Except.ok.injEq, exists_eq_left', ne_eq, not_true_eq_false,
    not_false_eq_true, true_and]
  exact ⟨_, rfl, signer, hrecover, fun h => h rfl, by decide, by omega,
    by omega, rfl⟩

theorem verifyRequest_sample (which : Which) (forAgent withKey : Bool)
    {nowSecs : Nat} (hafter : 1_700_000_000 ≤ nowSecs)
    (hbefore : nowSecs < 1_700_086_400) :
    verifyRequest externals (request which forAgent withKey) requirements
      (payment which) nowSecs = .ok (received which forAgent withKey) := by
  obtain ⟨_, _, _, hamount, _, _, hagent, hkey, _⟩ := texts_parsed
  simp only [verifyRequest, except_bind_eq_ok]
  exact ⟨_, verifyPayment_sample which hafter hbefore, _,
    parseOptionalId_sample hagent forAgent _, _,
    parseOptionalId_sample hkey withKey _,
    60_000_000, okOr_eq_ok_iff.mpr hamount, rfl⟩

/-- The first steps of a sample request, without the parsing. -/
def receive (which : Which) (forAgent withKey : Bool) :
    Handler Received := do
  emit (receivedEvent externals (request which forAgent withKey))
  let now : Micros ← Prog.perform Op.clock
  if 1_700_000_000 ≤ now / microsPerSecond ∧
      now / microsPerSecond < 1_700_086_400 then
    return received which forAgent withKey
  else
    .lift (verifyRequest externals (request which forAgent withKey)
      requirements (payment which) (now / microsPerSecond))

theorem validateTargetUrl_sample :
    validateTargetUrl externals url = .ok () := by
  decide +kernel

theorem validateResourceMatch_sample :
    validateResourceMatch externals url requirements.resource = .ok () := by
  decide

theorem validateAssetMatch_sample (which : Which) :
    validateAssetMatch externals (payment which) requirements = .ok () := by
  have hnetwork : Usdc.resolveNetwork (payment which).network =
      some (Usdc.baseSepolia, 84532) := rfl
  have hasset : externals.formatAddress Usdc.baseSepolia =
      requirements.asset := rfl
  simp only [validateAssetMatch, hnetwork, except_bind_eq_ok,
    okOr_eq_ok_iff, rejectIf_eq_ok_iff]
  refine ⟨_, rfl, fun hne => hne ?_⟩
  rw [hasset]

theorem parsePaymentRequirements_sample :
    parsePaymentRequirements externals requirementsHeader =
      .ok requirements := by
  have hdecode : externals.decodeRequirements requirementsHeader =
      .ok requirements := by
    simp only [externals, ↓reduceIte]
  rw [parsePaymentRequirements, hdecode]
  rfl

theorem parsePaymentPayload_sample (which : Which) :
    parsePaymentPayload externals (paymentHeader which) =
      .ok (payment which) := by
  rw [parsePaymentPayload, decodePayload_sample]
  rfl

theorem receivePayment_sample (which : Which) (forAgent withKey : Bool) :
    receivePayment externals (request which forAgent withKey) =
      receive which forAgent withKey := by
  have hurl : validateTargetUrl externals
      (request which forAgent withKey).targetUrl = .ok () :=
    validateTargetUrl_sample
  have hrequirements : parsePaymentRequirements externals
      (request which forAgent withKey).x402Requirements = .ok requirements :=
    parsePaymentRequirements_sample
  have hpayment : parsePaymentPayload externals
      (request which forAgent withKey).x402Payment = .ok (payment which) :=
    parsePaymentPayload_sample which
  exact receivePayment_of_verified externals hurl hrequirements hpayment
    validateResourceMatch_sample (validateAssetMatch_sample which)
    fun nowSecs => verifyRequest_sample which forAgent withKey

/-- A sample request, without the parsing. -/
def forward (which : Which) (forAgent withKey : Bool) :
    Handler ProxyResponse := do
  let received ← receive which forAgent withKey
  checkSessionKey externals received
  let agentRules ← checkGuardrails externals
    (request which forAgent withKey) received
  checkNonce received
  checkRateLimit config
  reserveSpend received agentRules
  forwardToTarget externals (request which forAgent withKey) received

theorem handle_forward (which : Which) (forAgent withKey : Bool) :
    handle externals config
      (.forwardRequest (request which forAgent withKey)) =
      .forwarded <$> forward which forAgent withKey := by
  rw [handle, forwardRequest, receivePayment_sample]
  rfl

def agent : Agent := ⟨agentId, "trader", signerText, true⟩

theorem unspent_nonneg : (0 : Int) ≤ 0 := Int.le_refl 0

theorem unspent_within {maxSpend : Int} (hpos : 0 < maxSpend) :
    0 ≤ maxSpend := Int.le_of_lt hpos

/-- A key of the agent `owner` with nothing spent yet. -/
def key (owner : Uuid) (maxSpend : Int) (hpos : 0 < maxSpend) :
    SessionKeyRow where
  id := keyId
  agentId := owner
  publicKey := "session public key"
  maxSpend := maxSpend
  spent := 0
  allowedContracts := .array []
  expiresAt := 1_700_086_400_000_000
  isRevoked := false
  maxSpend_pos := hpos
  spent_nonneg := unspent_nonneg
  spent_within_limit := unspent_within hpos

def rule (ruleType : RuleType) : GuardrailRow :=
  ⟨ruleId, agentId, ruleTypeName ruleType, ruleTypeParams ruleType, true⟩

/-- The agent with at most one rule and at most one key. -/
def db (rule? : Option RuleType) (key? : Option SessionKeyRow) : Db where
  agents := ⟨[agent], List.nodup_singleton _⟩
  guardrailRules := ⟨(rule?.map rule).toList, by cases rule? <;> simp⟩
  sessionKeys := ⟨key?.toList, by cases key? <;> simp⟩
  spendLedger := .empty

theorem hasKey_agentId (rule? : Option RuleType)
    (key? : Option SessionKeyRow) : (db rule? key?).agents.HasKey agentId :=
  List.mem_singleton.mpr rfl

/-- The world 100 seconds into the validity window. -/
def world (rule? : Option RuleType) (key? : Option SessionKeyRow) :
    World (handle externals config) Shared :=
  World.start _ (Shared.start 1_700_000_100_000_000 (db rule? key?))

/-- What replays of sample runs end in. -/
abbrev Replayed := Replay Op Reply AppError Response Request Shared

/-- Does an arriving request of a replay pass `allowed`? -/
def arriving (allowed : Request → Bool) :
    Action (Request × Handler Response) Micros Outcome → Bool
  | .arrive (request, _) => allowed request
  | _ => true

/-- Does an operation of a replay pass `allowed` in the state it finds? -/
def performing (allowed : Replayed → Op → Bool) (r : Replayed) :
    Action (Request × Handler Response) Micros Outcome → Bool
  | .advance index _ =>
      ((r.threads[index]?).bind fun thread => thread.rest.op?).all (allowed r)
  | _ => true

theorem allowed_of_performing {allowed : Replayed → Op → Bool}
    {w : World (handle externals config) Shared} {index : Nat}
    {outcome : Outcome} {call : Call (handle externals config)} {op : Op}
    (h : performing allowed w.toReplay (.advance index outcome) = true)
    (hcall : w.calls[index]? = some call) (hop : call.rest.op? = some op) :
    allowed w.toReplay op = true := by
  simpa only [performing, World.toReplay, List.getElem?_map, hcall,
    Option.map_some, Option.bind_some, Call.toThread, hop,
    Option.all_some] using h

/-- Nothing fails, and the target answers. -/
def fine : Outcome := ⟨false, 0, .response 200 (some (.object []))⟩

/-- Steps of the call at `index`. -/
def advance (index count : Nat) : List (Action Request Micros Outcome) :=
  List.replicate count (.advance index fine)

/-- The same steps in a replay. -/
def replayed (index count : Nat) :
    List (Action (Request × Handler Response) Micros Outcome) :=
  List.replicate count (.advance index fine)

@[simp] theorem map_advance {ext : Externals} {config : AppConfig}
    (index count : Nat) :
    (advance index count).map (Action.withProgram (handle ext config)) =
      replayed index count := by
  simp [advance, replayed, Action.withProgram]

@[simp] theorem withProgram_forward (which : Which)
    (forAgent withKey : Bool) :
    (Action.arrive (.forwardRequest (request which forAgent withKey)) :
        Action Request Micros Outcome).withProgram (handle externals config) =
      .arrive (.forwardRequest (request which forAgent withKey),
        .forwarded <$> forward which forAgent withKey) := by
  rw [Action.withProgram, handle_forward]

end Sample

end X402Guard
