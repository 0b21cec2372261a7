/-
The transfer behind an accepted payment: what the payer has signed, on which
network and for which requirements.  The scheme of the payment is checked, the
scheme that the requirements ask for is not.
-/
import X402Guard.ExactVerdicts

namespace X402Guard

variable (ext : Externals)

/-- The texts of an authorization denote a transfer. -/
structure TransferAuthorization.Denotes (auth : TransferAuthorization)
    (transfer : TransferWithAuthorization) : Prop where
  sender : ext.parseAddress auth.from = some transfer.from
  recipient : ext.parseAddress auth.to = some transfer.to
  value : ext.parseU256 auth.value = some transfer.value
  validAfter : parseU64 auth.validAfter = some transfer.validAfter.toNat
  validBefore : parseU64 auth.validBefore = some transfer.validBefore.toNat
  nonce : parseBytes32 auth.nonce = .ok transfer.nonce

/-- The signature text is one of `signer` over the transfer, under the domain
of the network's USDC. -/
def SignedBy (signer : Address) (network signatureText : String)
    (transfer : TransferWithAuthorization) : Prop :=
  ∃ usdcAddress chainId sigBytes signature,
    Usdc.resolveNetwork network = some (usdcAddress, chainId) ∧
    hexDecode (utf8Bytes (String.ofList (trimStart0x signatureText.toList))) =
      .ok sigBytes ∧
    ext.parseSignature sigBytes = some signature ∧
    ext.recoverAddress signature (ext.signingHash transfer
      (usdcEip712Domain usdcAddress chainId)) = some signer

/-- A payment stands for a transfer that its sender has signed, on the network
of the requirements, to their recipient, of their amount, valid now. -/
structure VerifiedPayment.Settles (verified : VerifiedPayment)
    (requirements : PaymentRequirements) (payment : PaymentPayload)
    (nowSecs : ℕ) (transfer : TransferWithAuthorization) : Prop where
  denotes : payment.payload.authorization.Denotes ext transfer
  paymentScheme : payment.scheme = "exact"
  network : payment.network = requirements.network
  signed : SignedBy ext verified.from requirements.network
    payment.payload.signature transfer
  sender : verified.from = transfer.from
  recipient : verified.to = transfer.to
  payTo : ext.parseAddress requirements.payTo = some verified.to
  value : verified.value = transfer.value
  amount : ∃ required,
    ext.parseU256 requirements.maxAmountRequired = some required ∧
      required ≤ verified.value
  nonce : verified.nonce = transfer.nonce
  started : transfer.validAfter.toNat ≤ nowSecs
  unexpired : nowSecs < transfer.validBefore.toNat

/-- It also has the scheme that the requirements ask for, the supported one. -/
def VerifiedPayment.MeetsRequirements (verified : VerifiedPayment)
    (requirements : PaymentRequirements) (payment : PaymentPayload)
    (nowSecs : ℕ) : Prop :=
  requirements.scheme = "exact" ∧
    ∃ transfer, verified.Settles ext requirements payment nowSecs transfer

theorem le_u64Max_of_parseU64 {text : String} {n : ℕ}
    (h : parseU64 text = some n) : n ≤ u64Max := by
  simp only [parseU64, Option.ite_none_left_eq_some,
    Option.ite_none_right_eq_some, Option.some.injEq] at h
  obtain ⟨_, hle, rfl⟩ := h
  exact hle

/-- A parsed time keeps its value in the signed 256-bit word. -/
theorem toNat_of_parseU64 {text : String} {n : ℕ}
    (h : parseU64 text = some n) : (BitVec.ofNat 256 n).toNat = n :=
  toNat_ofNat_of_le (le_u64Max_of_parseU64 h)

theorem verifyPayment_settles {requirements : PaymentRequirements}
    {payment : PaymentPayload} {nowSecs : ℕ} {verified : VerifiedPayment}
    (h : verifyPayment ext requirements payment nowSecs = .ok verified) :
    ∃ transfer,
      verified.Settles ext requirements payment nowSecs transfer := by
  simp only [verifyPayment, except_bind_eq_ok, okOr_eq_ok_iff,
    rejectIf_eq_ok_iff, mapError_eq_ok_iff, exists_and_left, exists_const,
    pure, Except.pure, Except.ok.injEq, not_not] at h
  obtain ⟨hscheme, hnetwork, ⟨usdcAddress, chainId⟩, husdc, sender, hsender,
    recipient, hrecipient, payTo, hpayTo, _, value, hvalue, required,
    hrequired, validAfter, hvalidAfter, validBefore, hvalidBefore, nonce,
    hnonce, sigBytes, hbytes, signature, hsignature, recovered, hrecovered,
    hsigner, hamount, hto, hafter, hbefore, rfl⟩ := h
  subst hsigner hto
  have hstart := toNat_of_parseU64 hvalidAfter
  have hend := toNat_of_parseU64 hvalidBefore
  refine ⟨⟨recovered, recipient, value, .ofNat 256 validAfter,
    .ofNat 256 validBefore, nonce⟩, ?_⟩
  exact {
    denotes := {
      sender := hsender
      recipient := hrecipient
      value := hvalue
      validAfter := hvalidAfter.trans (congrArg some hstart.symm)
      validBefore := hvalidBefore.trans (congrArg some hend.symm)
      nonce := hnonce }
    paymentScheme := hscheme
    network := hnetwork
    signed := ⟨usdcAddress, chainId, sigBytes, signature, hnetwork ▸ husdc,
      hbytes, hsignature, hrecovered⟩
    sender := rfl
    recipient := rfl
    payTo := hpayTo
    value := rfl
    amount := ⟨required, hrequired, BitVec.not_lt.mp hamount⟩
    nonce := rfl
    started := hstart.trans_le (Nat.not_lt.mp hafter)
    unexpired := (Nat.not_le.mp hbefore).trans_eq hend.symm }

/-- An accepted payment is what it claims to be, and meets the requirements
exactly when these ask for the scheme that the payment has. -/
theorem verifyPayment_meets_iff {requirements : PaymentRequirements}
    {payment : PaymentPayload} {nowSecs : ℕ} {verified : VerifiedPayment}
    (h : verifyPayment ext requirements payment nowSecs = .ok verified) :
    verified.MeetsRequirements ext requirements payment nowSecs ↔
      requirements.scheme = "exact" := by
  constructor
  · rintro ⟨hscheme, _⟩
    exact hscheme
  · intro hscheme
    exact ⟨hscheme, verifyPayment_settles ext h⟩

theorem verifyPayment_meets_iff_sample :
    (Sample.received .first true true).verified.MeetsRequirements
        Sample.externals Sample.requirements (Sample.payment .first)
        1_700_000_100 := by
  refine (verifyPayment_meets_iff Sample.externals
    (Sample.verifyPayment_sample .first ?_ ?_)).mpr rfl
  · decide
  · decide

/-- Requirements for another scheme, met by a payment of the exact one. -/
def Sample.uptoRequirements : PaymentRequirements :=
  { Sample.requirements with scheme := "upto" }

theorem verifyPayment_of_other_scheme :
    ∃ verified,
      verifyPayment Sample.externals Sample.uptoRequirements
        (Sample.payment .first) 1_700_000_100 = .ok verified ∧
      ¬ verified.MeetsRequirements Sample.externals Sample.uptoRequirements
        (Sample.payment .first) 1_700_000_100 := by
  refine ⟨_, Sample.verifyPayment_sample .first (by decide) (by decide), ?_⟩
  rintro ⟨hscheme, _⟩
  revert hscheme
  decide

end X402Guard
