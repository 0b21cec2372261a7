/-
The x402 payment types and the verification of an EIP-3009 authorization.  What
the proxy takes from third-party crates (URL and UUID parsing, base64 JSON
decoding, address and integer parsing, EIP-712 hashing, signature recovery) and
from the Unicode tables is a parameter.
-/
import X402Guard.ServerTypes

namespace X402Guard

/-- `std::net::IpAddr`. -/
inductive IpAddr
  | v4 (address : BitVec 32)
  | v6 (address : BitVec 128)
deriving DecidableEq, Repr

/-- What `url::Url::parse` keeps of a URL. -/
structure Url where
  scheme : String
  username : String
  password : Option String
  host : Option String
  port : Option Nat
  path : String
deriving DecidableEq, Repr

/-- Payment requirements as the caller of the proxy presents them. -/
structure PaymentRequirements where
  scheme : String
  network : String
  maxAmountRequired : String
  resource : String
  payTo : String
  maxTimeoutSeconds : Nat
  asset : String
  /-- Free-form metadata, not covered by the signature. -/
  extra : Value

/-- EIP-3009 TransferWithAuthorization parameters. -/
structure TransferAuthorization where
  «from» : String
  «to» : String
  value : String
  validAfter : String
  validBefore : String
  nonce : String
deriving DecidableEq, Repr

structure PaymentProof where
  signature : String
  authorization : TransferAuthorization
deriving DecidableEq, Repr

structure PaymentPayload where
  scheme : String
  network : String
  payload : PaymentProof
deriving DecidableEq, Repr

/-- The EIP-712 struct that is signed. -/
structure TransferWithAuthorization where
  «from» : Address
  «to» : Address
  value : U256
  validAfter : U256
  validBefore : U256
  nonce : Bytes32
deriving DecidableEq

structure Eip712Domain where
  name : String
  version : String
  chainId : Nat
  verifyingContract : Address
deriving DecidableEq

/-- A 65-byte ECDSA signature. -/
structure PrimitiveSignature where
  bytes : List UInt8
deriving DecidableEq

/-- The third-party functions the proxy calls. -/
structure Externals where
  /-- `url::Url::parse`. -/
  parseUrl : String → Option Url
  /-- `str::parse::<Uuid>`. -/
  parseUuid : String → Option Uuid
  /-- `str::to_lowercase`, which follows the Unicode tables. -/
  toLowercase : String → String
  /-- The `Debug` form of an address, `0x` and checksummed hex. -/
  formatAddress : Address → String
  /-- Trim, base64url-decode and read as `PaymentRequirements`. -/
  decodeRequirements : String → Except String PaymentRequirements
  /-- Trim, base64url-decode and read as `PaymentPayload`. -/
  decodePayload : String → Except String PaymentPayload
  /-- `str::parse::<Address>`. -/
  parseAddress : String → Option Address
  /-- `U256::from_str_radix(_, 10)`. -/
  parseU256 : String → Option U256
  /-- `PrimitiveSignature::try_from`. -/
  parseSignature : List UInt8 → Option PrimitiveSignature
  /-- `eip712_signing_hash`. -/
  signingHash : TransferWithAuthorization → Eip712Domain → Bytes32
  /-- `recover_address_from_prehash`. -/
  recoverAddress : PrimitiveSignature → Bytes32 → Option Address
  /-- Is the text a legal HTTP header value? -/
  isHeaderValue : String → Bool
  /-- `str::parse::<IpAddr>`. -/
  parseIpAddr : String → Option IpAddr
  /-- The `Display` form of an HTTP status code. -/
  formatStatus : Nat → String
  /-- `DateTime::to_rfc3339` of a time in microseconds. -/
  formatRfc3339 : Int → String

namespace Usdc

def baseMainnet : Address := 0x833589fCD6eDb6E08f4c7C32D4f71b54bdA02913
def baseSepolia : Address := 0x036CbD53842c5426634e7929541eC2318f3dCF7e
def baseMainnetChainId : Nat := 8453
def baseSepoliaChainId : Nat := 84532

/-- Resolve USDC address and chain ID from network identifier. -/
def resolveNetwork (network : String) : Option (Address × Nat) :=
  if network = "base-mainnet" ∨ network = "base" then
    some (baseMainnet, baseMainnetChainId)
  else if network = "base-sepolia" then
    some (baseSepolia, baseSepoliaChainId)
  else none

end Usdc

/-- Build the EIP-712 domain separator for USDC on the given chain. -/
def usdcEip712Domain (usdcAddress : Address) (chainId : Nat) : Eip712Domain :=
  ⟨"USD Coin", "2", chainId, usdcAddress⟩

/-- Parse a hex string (with optional 0x prefix) into a 32-byte array, padded
with zeros on the left. -/
def parseBytes32 (hexStr : String) : Except FromHexError Bytes32 := do
  let stripped := String.ofList (trimStart0x hexStr.toList)
  let bytes ← hexDecode (utf8Bytes stripped)
  if h : bytes.length ≤ 32 then
    .ok ⟨List.replicate (32 - bytes.length) 0 ++ bytes, by simp; omega⟩
  else .error .invalidStringLength

variable (ext : Externals)

/-- Verify an x402 payment payload against its requirements. -/
def verifyPayment (requirements : PaymentRequirements)
    (payment : PaymentPayload) (nowSecs : Nat) :
    Except AppError VerifiedPayment := do
  -- 1. Scheme check
  rejectIf (payment.scheme ≠ "exact")
    (.badRequest s!"unsupported payment scheme: {payment.scheme}")
  -- 2. Network check
  rejectIf (payment.network ≠ requirements.network)
    (.badRequest s!"network mismatch: payment={payment.network}, required={requirements.network}")
  let (usdcAddress, chainId) ← okOr
    (.badRequest s!"unsupported network: {payment.network}")
    (Usdc.resolveNetwork payment.network)
  let auth := payment.payload.authorization
  let «from» ← okOr (.badRequest "invalid 'from' address")
    (ext.parseAddress auth.from)
  let «to» ← okOr (.badRequest "invalid 'to' address")
    (ext.parseAddress auth.to)
  let payTo ← okOr (.badRequest "invalid 'payTo' address in requirements")
    (ext.parseAddress requirements.payTo)
  -- The value must be decimal only.
  rejectIf (auth.value.startsWith "0x" ∨ auth.value.startsWith "0X")
    (.badRequest "value must be decimal, not hex-prefixed")
  let value ← okOr
    (.badRequest "invalid 'value' — expected decimal integer")
    (ext.parseU256 auth.value)
  let requiredAmount ← okOr
    (.badRequest "invalid 'maxAmountRequired' in requirements")
    (ext.parseU256 requirements.maxAmountRequired)
  let validAfter ← okOr (.badRequest "invalid 'validAfter'")
    (parseU64 auth.validAfter)
  let validBefore ← okOr (.badRequest "invalid 'validBefore'")
    (parseU64 auth.validBefore)
  let nonce ← (parseBytes32 auth.nonce).mapError fun _ =>
    .badRequest "invalid 'nonce' — expected 32-byte hex"
  -- 3. EIP-712 signature verification
  let sigBytes ← (hexDecode (utf8Bytes (String.ofList
      (trimStart0x payment.payload.signature.toList)))).mapError fun _ =>
    .badRequest "invalid signature hex"
  let signature ← okOr
    (.badRequest "invalid signature format (expected 65 bytes)")
    (ext.parseSignature sigBytes)
  let typedData : TransferWithAuthorization :=
    ⟨«from», «to», value, .ofNat 256 validAfter, .ofNat 256 validBefore, nonce⟩
  let domain := usdcEip712Domain usdcAddress chainId
  let recovered ← okOr (.unauthorized "signature recovery failed")
    (ext.recoverAddress signature (ext.signingHash typedData domain))
  let signer := ext.formatAddress recovered
  let claimed := ext.formatAddress «from»
  rejectIf (recovered ≠ «from») (.unauthorized
    s!"signature signer mismatch: recovered={signer}, claimed={claimed}")
  -- 4. Amount check
  rejectIf (value < requiredAmount) (.badRequest
    s!"payment value {value.toNat} less than required {requiredAmount.toNat}")
  -- 5. Recipient check
  let recipient := ext.formatAddress «to»
  let required := ext.formatAddress payTo
  rejectIf («to» ≠ payTo) (.badRequest
    s!"payment recipient {recipient} does not match required {required}")
  -- 6. Temporal bounds
  rejectIf (nowSecs < validAfter) (.badRequest
    s!"payment not yet valid: validAfter={validAfter}, now={nowSecs}")
  rejectIf (nowSecs ≥ validBefore) (.unauthorized
    s!"payment expired: validBefore={validBefore}, now={nowSecs}")
  return ⟨«from», «to», value, nonce, payment.network⟩

/-- What a verified payment is known to satisfy. -/
structure VerifiedPayment.Valid (verified : VerifiedPayment)
    (requirements : PaymentRequirements) (payment : PaymentPayload)
    (nowSecs : Nat) : Prop where
  scheme : payment.scheme = "exact"
  network : payment.network = requirements.network
  network_eq : verified.network = payment.network
  sender : ext.parseAddress payment.payload.authorization.from =
    some verified.from
  recipient : ext.parseAddress payment.payload.authorization.to =
    some verified.to
  payTo : ext.parseAddress requirements.payTo = some verified.to
  value : ext.parseU256 payment.payload.authorization.value =
    some verified.value
  amount : ∃ required,
    ext.parseU256 requirements.maxAmountRequired = some required ∧
      required ≤ verified.value
  nonce : parseBytes32 payment.payload.authorization.nonce =
    .ok verified.nonce
  validAfter : ∃ validAfter,
    parseU64 payment.payload.authorization.validAfter = some validAfter ∧
      validAfter ≤ nowSecs
  validBefore : ∃ validBefore,
    parseU64 payment.payload.authorization.validBefore = some validBefore ∧
      nowSecs < validBefore

theorem verifyPayment_valid {requirements : PaymentRequirements}
    {payment : PaymentPayload} {nowSecs : Nat} {verified : VerifiedPayment}
    (h : verifyPayment ext requirements payment nowSecs = .ok verified) :
    verified.Valid ext requirements payment nowSecs := by
  simp only [verifyPayment, except_bind_eq_ok, okOr_eq_ok_iff,
    rejectIf_eq_ok_iff, mapError_eq_ok_iff, exists_and_left, exists_const,
    pure, Except.pure, Except.ok.injEq] at h
  obtain ⟨hscheme, hnetwork, _, _, sender, hsender, recipient, hrecipient,
    payTo, hpayTo, _, value, hvalue, required, hrequired, validAfter,
    hvalidAfter, validBefore, hvalidBefore, nonce, hnonce, _, _, _, _, _, _,
    _, hamount, hto, hafter, hbefore, rfl⟩ := h
  rw [not_not] at hscheme hnetwork hto
  subst hto
  exact ⟨hscheme, hnetwork, rfl, hsender, hrecipient, hpayTo, hvalue,
    ⟨required, hrequired, BitVec.not_lt.mp hamount⟩, hnonce,
    ⟨validAfter, hvalidAfter, Nat.not_lt.mp hafter⟩,
    ⟨validBefore, hvalidBefore, Nat.not_le.mp hbefore⟩⟩

end X402Guard
