/-
What the replay protection remembers.  Its key and its column are the nonce
alone, so payments under other nonces never touch the answer a payment gets;
payments under the same nonce do, whoever has signed them.
-/
import X402Guard.CallHistory
import X402Guard.ForwardEnding
import X402Guard.LedgerBacking

namespace X402Guard

open Interaction Prog

variable {ext : Externals} {config : AppConfig}
variable {Allowed : World (handle ext config) Shared →
  Action Request Micros Outcome → Prop}

theorem hexDigit_injective {m n : Nat} (hm : m < 16) (hn : n < 16)
    (h : hexDigit m = hexDigit n) : m = n := by
  have hall : ∀ m < 16, ∀ n < 16, hexDigit m = hexDigit n → m = n := by
    decide
  exact hall m hm n hn h

theorem hexEncode_injective {first second : List UInt8}
    (h : hexEncode first = hexEncode second) : first = second := by
  have hdigits := String.ofList_injective h
  clear h
  induction first generalizing second with
  | nil =>
      cases second with
      | nil => rfl
      | cons byte rest => simp at hdigits
  | cons byte rest ih =>
      cases second with
      | nil => simp at hdigits
      | cons byte' rest' =>
          simp only [List.flatMap_cons, List.cons_append, List.nil_append,
            List.cons.injEq] at hdigits
          obtain ⟨hhigh, hlow, hrest⟩ := hdigits
          have hlt : byte.toNat < 256 := byte.toNat_lt
          have hlt' : byte'.toNat < 256 := byte'.toNat_lt
          have hhigh := hexDigit_injective (by omega) (by omega) hhigh
          have hlow := hexDigit_injective (by omega) (by omega) hlow
          have hbyte : byte = byte' := UInt8.toNat_inj.mp (by omega)
          rw [hbyte, ih hrest]

theorem redisKey_injective {first second : Bytes32}
    (h : redisKey first = redisKey second) : first = second :=
  Bytes32.ext (hexEncode_injective ((String.append_right_inj _).mp h))

/-- The operation stores the nonce, or inserts a row under it. -/
def Op.Uses (nonce : Bytes32) : Op → Prop
  | .redis (.setNxEx key _) => key = redisKey nonce
  | .postgres (.insertSpend _ values _) =>
      values.txNonce = hexEncode nonce.bytes
  | _ => False

theorem Op.Uses.stage {nonce : Bytes32} {op : Op} (h : op.Uses nonce) :
    op.stage = 8 ∨ op.stage = 10 := by
  cases op with
  | redis command =>
      cases command with
      | setNxEx => exact Or.inl rfl
      | _ => exact h.elim
  | postgres query =>
      cases query with
      | insertSpend => exact Or.inr rfl
      | _ => exact h.elim
  | _ => exact h.elim

/-- The steps after the fifth use no nonce but that of the payment. -/
theorem afterReceived_uses {req : ProxyRequest} (received : Received) :
    (checkSessionKey ext received >>= fun _ =>
      checkGuardrails ext req received >>= fun agentRules =>
        checkNonce received >>= fun _ => checkRateLimit config >>= fun _ =>
          reserveSpend received agentRules >>= fun _ =>
            forwardToTarget ext req received).Within
      fun op => ∀ nonce, op.Uses nonce → received.verified.nonce = nonce := by
  refine Within.bind (checkSessionKey_ops received (fun _ _ h => h.elim)
    fun _ h => h.elim) fun _ => ?_
  refine Within.bind (checkGuardrails_ops req received (fun _ _ h => h.elim)
    (fun _ _ h => h.elim) (fun _ _ h => h.elim) fun _ _ h => h.elim)
    fun agentRules => ?_
  refine Within.bind (checkNonce_ops received (fun _ h => h.elim)
    fun _ _ h => redisKey_injective h) fun _ => ?_
  refine Within.bind (checkRateLimit_ops (fun _ h => h.elim)
    (fun _ h => h.elim) (fun _ h => h.elim) (fun _ _ _ _ _ _ h => h.elim)
    fun _ _ _ h => h.elim) fun _ => ?_
  refine Within.bind (reserveSpend_ops received agentRules
    (fun _ h => h.elim) ?_ fun _ _ _ h => h.elim) fun _ => ?_
  · intro snapshot values limit? hvalues nonce h
    exact Bytes32.ext (hexEncode_injective (hvalues.symm.trans h))
  · refine (forwardToTarget_within req received).mono ?_
    intro op hstage nonce h
    have huses := h.stage
    omega

/-- A call uses no nonce but that of its own request. -/
theorem nonce_of_uses {call : Call (handle ext config)}
    {event : Event Op Reply} {nonce : Bytes32} (hevent : event ∈ call.trace)
    (h : event.op.Uses nonce) : call.request.nonce ext = some nonce := by
  have hstage := h.stage
  obtain ⟨req, rest, hreq, hreached⟩ := forwards_of_spends hevent (by
    unfold Op.Spends
    omega)
  obtain ⟨received, _, _, _, hreceive, hlater, hlate⟩ :=
    reaches_bind_of_mem hreached (receivePayment_within req) hevent
      (by unfold UpTo; omega)
  have hsame := (afterReceived_uses received).of_mem hlater event hlate nonce h
  obtain ⟨_, _, _, hauth⟩ := (receivePayment_valid hreceive).names
  rw [hreq, Request.nonce]
  exact (congrArg (Option.map Prod.snd) hauth).trans (congrArg some hsame)

/-- The event has taken the key of the nonce at least until the instant. -/
def TakesUntil (nonce : Bytes32) (instant : Micros) : Event Op Reply → Prop
  | ⟨.redis (.setNxEx key ttlSecs), .ok wasSet, _, time⟩ =>
      key = redisKey nonce ∧ wasSet = true ∧
        instant ≤ time + ttlSecs * microsPerSecond
  | _ => False

theorem TakesUntil.uses {nonce : Bytes32} {instant : Micros}
    {event : Event Op Reply} (h : TakesUntil nonce instant event) :
    event.op.Uses nonce := by
  obtain ⟨op, reply, order, time⟩ := event
  cases op with
  | redis command =>
      cases command with
      | setNxEx key ttlSecs =>
          cases reply with
          | error error => exact h.elim
          | ok wasSet => exact h.1
      | _ => exact h.elim
  | _ => exact h.elim

theorem takesUntil_withOrder {nonce : Bytes32} {instant : Micros}
    (event : Event Op Reply) (order : Nat) :
    TakesUntil nonce instant { event with order } ↔
      TakesUntil nonce instant event := by
  obtain ⟨op, reply, _, time⟩ := event
  cases op with
  | redis command =>
      cases command with
      | setNxEx key ttlSecs => cases reply <;> rfl
      | _ => rfl
  | _ => rfl

theorem uses_of_inserts {nonce : Bytes32} {event : Event Op Reply}
    (h : inserts nonce event = true) : event.op.Uses nonce := by
  unfold inserts at h
  split at h
  · rw [Bool.and_eq_true, decide_eq_true_eq] at h
    exact h.1
  · cases h

/-- Redis takes the key of the nonce for the payments that store it. -/
theorem perform_reservedUntil_iff {nonce : Bytes32} {instant : Micros}
    (op : Op) (outcome : Outcome) (s : Shared) (order : Nat) :
    (perform op outcome s).2.redis.ReservedUntil (redisKey nonce) instant ↔
      s.redis.ReservedUntil (redisKey nonce) instant ∨
        TakesUntil nonce instant
          ⟨op, (perform op outcome s).1, order, s.now⟩ := by
  cases op with
  | redis command =>
      simp only [perform]
      split
      · cases command <;> simp [TakesUntil]
      · cases command with
        | setNxEx key ttlSecs => exact RedisDb.setNxEx_reservedUntil_iff
        | slideWindow => simp [TakesUntil, Command.run, RedisDb.putSet,
            RedisDb.ReservedUntil]
        | zrem key member =>
            simp only [TakesUntil, Command.run, or_false]
            split
            · split <;> rfl
            · rfl
  | postgres query =>
      rcases perform_postgres query outcome s with
        ⟨error, heq⟩ | ⟨answer, db', heq, _⟩ <;> simp [heq, TakesUntil]
  | emit event =>
      simp only [perform]
      split <;> simp [TakesUntil]
  | _ => simp [perform, TakesUntil]

theorem inserts_iff {nonce : Bytes32} {event : Event Op Reply} :
    inserts nonce event = true ↔
      ∃ values, inserted? event = some values ∧
        values.txNonce = hexEncode nonce.bytes := by
  obtain ⟨op, reply, order, time⟩ := event
  cases op with
  | postgres query =>
      cases query with
      | insertSpend snapshot values limit? =>
          cases reply with
          | error error => simp [inserts, inserted?]
          | ok affected =>
              by_cases hone : affected = 1 <;> simp [inserts, inserted?, hone]
      | _ => simp [inserts, inserted?]
  | _ => simp [inserts, inserted?]

theorem inserts_withOrder {nonce : Bytes32} (event : Event Op Reply)
    (order : Nat) :
    inserts nonce { event with order } = true ↔ inserts nonce event = true := by
  have hsame : inserted? { event with order } = inserted? event := by
    obtain ⟨op, reply, _, time⟩ := event
    cases op with
    | postgres query =>
        cases query with
        | insertSpend snapshot values limit? => cases reply <;> rfl
        | _ => rfl
    | _ => rfl
  rw [inserts_iff, inserts_iff, hsame]

/-- The ledger has the rows that were inserted. -/
theorem perform_hasKey_iff {nonce : Bytes32} (op : Op) (outcome : Outcome)
    (s : Shared) (order : Nat) :
    (perform op outcome s).2.db.spendLedger.HasKey (hexEncode nonce.bytes) ↔
      s.db.spendLedger.HasKey (hexEncode nonce.bytes) ∨
        inserts nonce ⟨op, (perform op outcome s).1, order, s.now⟩ =
          true := by
  rw [inserts_iff]
  rcases perform_inserted op outcome s order s.now with
    ⟨hnone, hsame⟩ | ⟨values, createdAt, hpos, hnew, hsome, hrows⟩
  · simp [hnone, hsame]
  · rw [hsome, hrows, KeyedTable.hasKey_insert]
    simp [SpendValues.row, eq_comm]

/-- What had been attempted with a nonce before the given step: the SETs and
INSERTs of the requests that carry it, with their replies and times. -/
def doneWith (nonce : Bytes32) (order : Nat)
    (w : World (handle ext config) Shared) : Set (Event Op Reply) :=
  {event | ∃ done ∈ w.doneBefore order,
    done.1.nonce ext = some nonce ∧ done.2.op.Uses nonce ∧
      event = { done.2 with order := 0 }}

section Moment

variable {w₀ w now : World (handle ext config) Shared} {order : Nat}
variable (run : Run (World.step proxySemantics) Allowed w₀ now)
variable (hstart : w₀.events = [])
variable (hdone : w.doneBefore order = {done | done ∈ now.done})

include hdone in
/-- An event of a kind that uses the nonce, and that does not depend on its
place in the run, has happened if it was done with the nonce. -/
theorem exists_event_iff {K : Event Op Reply → Prop} {nonce : Bytes32}
    (huses : ∀ event, K event → event.op.Uses nonce)
    (horder : ∀ event, K { event with order := 0 } ↔ K event) :
    (∃ event ∈ now.events, K event) ↔
      ∃ event ∈ doneWith nonce order w, K event := by
  constructor
  · rintro ⟨event, hevent, hK⟩
    obtain ⟨call, hcall, htrace⟩ := List.mem_flatMap.mp hevent
    have huse := huses event hK
    refine ⟨_, ⟨(call.request, event), ?_, nonce_of_uses htrace huse, huse,
      rfl⟩, (horder event).mpr hK⟩
    rw [hdone]
    exact World.mem_done_iff.mpr ⟨call, hcall, rfl, htrace⟩
  · rintro ⟨_, ⟨done, hmem, _, _, rfl⟩, hK⟩
    rw [hdone] at hmem
    exact ⟨done.2, World.mem_events_of_done hmem, (horder done.2).mp hK⟩

include run hstart hdone

theorem reservedUntil_iff (nonce : Bytes32) (instant : Micros) :
    now.shared.redis.ReservedUntil (redisKey nonce) instant ↔
      w₀.shared.redis.ReservedUntil (redisKey nonce) instant ∨
        ∃ event ∈ doneWith nonce order w, TakesUntil nonce instant event := by
  rw [← exists_event_iff hdone (fun _ h => h.uses)
    fun event => takesUntil_withOrder event 0]
  exact World.arises_iff (P := fun s : Shared =>
    s.redis.ReservedUntil (redisKey nonce) instant) run hstart
    (fun _ _ => Iff.rfl) perform_reservedUntil_iff

theorem hasRow_iff (nonce : Bytes32) :
    now.shared.db.spendLedger.HasKey (hexEncode nonce.bytes) ↔
      w₀.shared.db.spendLedger.HasKey (hexEncode nonce.bytes) ∨
        ∃ event ∈ doneWith nonce order w, inserts nonce event = true := by
  rw [← exists_event_iff hdone (fun _ h => uses_of_inserts h)
    fun event => inserts_withOrder event 0]
  exact World.arises_iff (P := fun s : Shared =>
    s.db.spendLedger.HasKey (hexEncode nonce.bytes)) run hstart
    (fun _ _ => Iff.rfl) perform_hasKey_iff

end Moment

theorem perform_setNxEx_congr {s s' : Shared} {key : String}
    (h : s.redis.Live s.now key ↔ s'.redis.Live s'.now key) (ttlSecs : Nat)
    (outcome : Outcome) :
    (perform (.redis (.setNxEx key ttlSecs)) outcome s).1 =
      (perform (.redis (.setNxEx key ttlSecs)) outcome s').1 := by
  by_cases hfails : outcome.fails = true
  · simp [perform, hfails]
  · by_cases hlive : s.redis.Live s.now key
    · simp [perform, Command.run, hfails, hlive, h.mp hlive]
    · simp [perform, Command.run, hfails, hlive, mt h.mpr hlive]

namespace Sample

-- A second signer pays the same service, under the nonce that the first
-- authorization of the other signer has.

inductive Payer
  | signer
  | other
deriving DecidableEq

variable (payer : Payer)

def payerAddress : Payer → Address
  | .signer => signer
  | .other => 0x70997970C51812dc3A010C7d01b50e0d17dc79C8

def payerText : Payer → String
  | .signer => signerText
  | .other => "0x70997970C51812dc3A010C7d01b50e0d17dc79C8"

def payerSignatureText : Payer → String
  | .signer => signatureText .first
  | .other =>
    "0x22f7261b93a50b9d3a2abc0d37729d40ae4e191feaf7df86f35552382498ee43" ++
    "681cccd515629681c95fae6ca79932d225b87feaae685f0b170871ec6d0dd74b1b"

def payerHeader : Payer → String
  | .signer => paymentHeader .first
  | .other =>
    "eyJzY2hlbWUiOiJleGFjdCIsIm5ldHdvcmsiOiJiYXNlLXNlcG9saWEiLCJwYXlsb2" ++
    "FkIjp7InNpZ25hdHVyZSI6IjB4MjJmNzI2MWI5M2E1MGI5ZDNhMmFiYzBkMzc3Mjlk" ++
    "NDBhZTRlMTkxZmVhZjdkZjg2ZjM1NTUyMzgyNDk4ZWU0MzY4MWNjY2Q1MTU2Mjk2OD" ++
    "FjOTVmYWU2Y2E3OTkzMmQyMjViODdmZWFhZTY4NWYwYjE3MDg3MWVjNmQwZGQ3NGIx" ++
    "YiIsImF1dGhvcml6YXRpb24iOnsiZnJvbSI6IjB4NzA5OTc5NzBDNTE4MTJkYzNBMD" ++
    "EwQzdkMDFiNTBlMGQxN2RjNzlDOCIsInRvIjoiMHg3NDJkMzVDYzY2MzRDMDUzMjky" ++
    "NWEzYjg0NEJjNDU0ZTQ0MzhmNDRlIiwidmFsdWUiOiI2MDAwMDAwMCIsInZhbGlkQW" ++
    "Z0ZXIiOiIxNzAwMDAwMDAwIiwidmFsaWRCZWZvcmUiOiIxNzAwMDg2NDAwIiwibm9u" ++
    "Y2UiOiIweDAxMDEwMTAxMDEwMTAxMDEwMTAxMDEwMTAxMDEwMTAxMDEwMTAxMDEwMT" ++
    "AxMDEwMTAxMDEwMTAxMDEwMTAxMDEifX19"

def payerPayment : PaymentPayload where
  scheme := "exact"
  network := "base-sepolia"
  payload := {
    signature := payerSignatureText payer
    authorization := {
      «from» := payerText payer
      «to» := serviceText
      value := "60000000"
      validAfter := "1700000000"
      validBefore := "1700086400"
      nonce := nonceText .first } }

def payerTransfer : TransferWithAuthorization :=
  ⟨payerAddress payer, service, 60_000_000, 1_700_000_000, 1_700_086_400,
    nonce .first⟩

def payerDigest : Payer → Bytes32
  | .signer => digest .first
  | .other => (parseBytes32
      "d4e91131f94c322f27da6fdd3956dca4e03c30a4c755d9094f2cb45a200478c9"
      ).toOption.getD .zero

def payerSignature : PrimitiveSignature :=
  ⟨(hexDecode (utf8Bytes (String.ofList
    (trimStart0x (payerSignatureText payer).toList)))).toOption.getD []⟩

/-- The third-party functions on the payments of both signers. -/
def payers : Externals where
  parseUrl := externals.parseUrl
  parseUuid := parseUuid
  toLowercase := String.toLower
  formatAddress address :=
    if address = Usdc.baseSepolia then usdcText
    else if address = payerAddress .signer then payerText .signer
    else if address = payerAddress .other then payerText .other
    else serviceText
  decodeRequirements := externals.decodeRequirements
  decodePayload header :=
    if header = payerHeader .signer then .ok (payerPayment .signer)
    else if header = payerHeader .other then .ok (payerPayment .other)
    else .error "invalid base64url in X-Payment"
  parseAddress := parseAddress
  parseU256 := externals.parseU256
  parseSignature := externals.parseSignature
  signingHash data domain :=
    if domain ≠ usdcEip712Domain Usdc.baseSepolia 84532 then .zero
    else if data = payerTransfer .signer then payerDigest .signer
    else if data = payerTransfer .other then payerDigest .other
    else .zero
  recoverAddress candidate hash :=
    if candidate = payerSignature .signer ∧ hash = payerDigest .signer then
      some (payerAddress .signer)
    else if candidate = payerSignature .other ∧ hash = payerDigest .other then
      some (payerAddress .other)
    else none
  isHeaderValue _ := true
  parseIpAddr _ := none
  formatStatus _ := "200 OK"
  formatRfc3339 _ := "2023-11-15T22:13:20+00:00"

/-- A request of the signer, without an agent. -/
def payerRequest : ProxyRequest where
  targetUrl := url
  x402Payment := payerHeader payer
  x402Requirements := requirementsHeader
  agentId := none
  sessionKeyId := none

def payerReceived : Received where
  requirements := requirements
  verified :=
    ⟨payerAddress payer, service, 60_000_000, nonce .first, "base-sepolia"⟩
  agentId := none
  sessionKeyId := none
  paymentAmount := 60_000_000

theorem decodeRequirements_payer :
    payers.decodeRequirements requirementsHeader = .ok requirements := by
  have hsame : payers.decodeRequirements = externals.decodeRequirements := rfl
  rw [hsame]
  exact mapError_eq_ok_iff.mp parsePaymentRequirements_sample

theorem decodePayload_payer :
    payers.decodePayload (payerHeader payer) = .ok (payerPayment payer) := by
  have hne : payerHeader .other ≠ payerHeader .signer := by decide +kernel
  cases payer with
  | signer => simp only [payers, ↓reduceIte]
  | other => simp only [payers, hne, ↓reduceIte]

theorem recoverAddress_payer :
    payers.recoverAddress (payerSignature payer)
      (payers.signingHash (payerTransfer payer)
        (usdcEip712Domain Usdc.baseSepolia 84532)) =
      some (payerAddress payer) := by
  have htransfer : payerTransfer .other ≠ payerTransfer .signer := by
    decide
  have hdigest : payerDigest .other ≠ payerDigest .signer := by
    decide
  cases payer with
  | signer => simp [payers]
  | other => simp [payers, htransfer, hdigest]

theorem payerSignatureText_parsed :
    hexDecode (utf8Bytes (String.ofList
      (trimStart0x (payerSignatureText payer).toList))) =
      .ok (payerSignature payer).bytes ∧
    externals.parseSignature (payerSignature payer).bytes =
      some (payerSignature payer) := by
  cases payer with
  | signer => exact (payment_parsed .first).2
  | other =>
      apply signature_parsed rfl
      rw [toList_of_eq_append (rfl : payerSignatureText .other = _) rfl rfl]
      decide +kernel

theorem verifyRequest_payer {nowSecs : Nat} (hafter : 1_700_000_000 ≤ nowSecs)
    (hbefore : nowSecs < 1_700_086_400) :
    verifyRequest payers (payerRequest payer) requirements
      (payerPayment payer) nowSecs = .ok (payerReceived payer) := by
  obtain ⟨hsigner, hservice, hvalue, hamount, hvalidAfter, hvalidBefore, _, _,
    hdecimal⟩ := texts_parsed
  obtain ⟨hnonce, _⟩ := payment_parsed .first
  have hpayer : parseAddress (payerText payer) =
      some (payerAddress payer) := by
    cases payer with
    | signer => exact hsigner
    | other =>
        rw [parseAddress, toList_of_eq_ofList (rfl : payerText .other = _)]
        decide
  obtain ⟨hsignature, hlength⟩ := payerSignatureText_parsed payer
  have hrecover := recoverAddress_payer payer
  simp only [payerTransfer] at hrecover
  have hverified : verifyPayment payers requirements (payerPayment payer)
      nowSecs = .ok (payerReceived payer).verified := by
    simp only [verifyPayment, except_bind_eq_ok, okOr_eq_ok_iff,
      rejectIf_eq_ok_iff, mapError_eq_ok_iff, exists_and_left, exists_const,
      payerPayment, requirements, payers, hpayer, hservice, hvalue,
      hvalidAfter, hvalidBefore, hnonce, hsignature, hdecimal, hlength,
      Option.some.injEq, Except.ok.injEq, exists_eq_left', ne_eq,
      not_true_eq_false, not_false_eq_true, true_and]
    exact ⟨_, rfl, payerAddress payer, hrecover, fun h => h rfl, by decide,
      by omega, by omega, rfl⟩
  simp only [verifyRequest, except_bind_eq_ok]
  exact ⟨_, hverified, none, rfl, none, rfl, 60_000_000,
    okOr_eq_ok_iff.mpr hamount, rfl⟩

/-- The first steps of such a request, without the parsing. -/
def receiveFrom : Handler Received := do
  emit (receivedEvent payers (payerRequest payer))
  let now : Micros ← Prog.perform Op.clock
  if 1_700_000_000 ≤ now / microsPerSecond ∧
      now / microsPerSecond < 1_700_086_400 then
    return payerReceived payer
  else
    .lift (verifyRequest payers (payerRequest payer) requirements
      (payerPayment payer) (now / microsPerSecond))

theorem receivePayment_payer :
    receivePayment payers (payerRequest payer) = receiveFrom payer := by
  have hurl : validateTargetUrl payers url = .ok () :=
    validateTargetUrl_sample
  have hrequirements : parsePaymentRequirements payers requirementsHeader =
      .ok requirements := by
    rw [parsePaymentRequirements, decodeRequirements_payer]
    rfl
  have hpayment : parsePaymentPayload payers (payerHeader payer) =
      .ok (payerPayment payer) := by
    rw [parsePaymentPayload, decodePayload_payer]
    rfl
  have hresource : validateResourceMatch payers url requirements.resource =
      .ok () := validateResourceMatch_sample
  have hasset : validateAssetMatch payers (payerPayment payer)
      requirements = .ok () := by
    have hnetwork : Usdc.resolveNetwork (payerPayment payer).network =
        some (Usdc.baseSepolia, 84532) := rfl
    have hasset : payers.formatAddress Usdc.baseSepolia =
        requirements.asset := rfl
    simp only [validateAssetMatch, hnetwork, except_bind_eq_ok,
      okOr_eq_ok_iff, rejectIf_eq_ok_iff]
    refine ⟨_, rfl, fun hne => hne ?_⟩
    rw [hasset]
  exact receivePayment_of_verified payers hurl hrequirements hpayment
    hresource hasset fun nowSecs => verifyRequest_payer payer

/-- Such a request, without the parsing. -/
def forwardFrom : Handler ProxyResponse := do
  let received ← receiveFrom payer
  checkSessionKey payers received
  let agentRules ← checkGuardrails payers (payerRequest payer) received
  checkNonce received
  checkRateLimit Sample.config
  reserveSpend received agentRules
  forwardToTarget payers (payerRequest payer) received

theorem withProgram_payer :
    (Action.arrive (.forwardRequest (payerRequest payer)) :
        Action Request Micros Outcome).withProgram
        (handle payers Sample.config) =
      .arrive (.forwardRequest (payerRequest payer),
        .forwarded <$> forwardFrom payer) := by
  rw [Action.withProgram, handle, forwardRequest, receivePayment_payer]
  rfl

@[simp] theorem authorization_payer :
    (Request.forwardRequest (payerRequest payer)).authorization payers =
      some (payerAddress payer, nonce .first) := by
  have hvalid : (payerReceived payer).Valid payers (payerRequest payer) :=
    ⟨decodeRequirements_payer, payerPayment payer, 1_700_000_100,
      decodePayload_payer payer,
      verifyRequest_payer payer (by omega) (by omega)⟩
  exact hvalid.names.2.2.2

/-- The world of both signers, 100 seconds into the validity window. -/
def payersWorld : World (handle payers Sample.config) Shared :=
  World.start _ (Shared.start 1_700_000_100_000_000 (db none none))

def replayError : AppError := .badRequest <| "nonce already used: " ++
  "0101010101010101010101010101010101010101010101010101010101010101"

/-- Which calls of a replay have come to their nonce check. -/
def checkFlags (r : Replayed) : List Bool :=
  r.threads.map fun thread => thread.trace.any fun event =>
    event.op.stage = 8

/-- The other signer pays after the first one. -/
theorem exists_run_payers : ∃ w, Run (World.step proxySemantics) always
    payersWorld w ∧
    (w.toReplay.shared.now, endings w.toReplay, checkFlags w.toReplay) =
      (1_700_000_100_000_000, [some none, some (some replayError)],
        [true, true]) ∧
    w.calls.map Call.request =
      [.forwardRequest (payerRequest .signer),
        .forwardRequest (payerRequest .other)] := by
  refine World.exists_run_of_replay
    (fun r => (r.shared.now, endings r, checkFlags r))
    (fun _ _ => true) (fun _ _ _ => trivial)
    (.arrive (.forwardRequest (payerRequest .signer)) ::
      (advance 0 10 ++ .arrive (.forwardRequest (payerRequest .other)) ::
        advance 1 4)) ?_
  simp only [List.map_append, List.map_cons, withProgram_payer, map_advance]
  decide

end Sample

/-- The payment of one signer is forwarded when it comes first, and rejected as
a replay when the other signer has paid under the same nonce. -/
theorem replay_of_other_signer : ∃ w w',
    Run (World.step proxySemantics) always Sample.payersWorld w ∧
    Run (World.step proxySemantics) always Sample.payersWorld w' ∧
    w.shared.now = w'.shared.now ∧
    w.calls.map (fun call => call.request.authorization Sample.payers) =
      [some (Sample.payerAddress .signer, Sample.nonce .first),
        some (Sample.payerAddress .other, Sample.nonce .first)] ∧
    w'.calls.map (fun call => call.request.authorization Sample.payers) =
      [some (Sample.payerAddress .other, Sample.nonce .first)] ∧
    Sample.payerAddress .other ≠ Sample.payerAddress .signer ∧
    w.calls.map (fun call => call.rest.result?.map errorOf) =
      [some none, some (some Sample.replayError)] ∧
    w'.calls.map (fun call => call.rest.result?.map errorOf) = [some none] ∧
    w'.calls.map forwarded = [true] := by
  have halone : ∃ w, Run (World.step proxySemantics) always
      Sample.payersWorld w ∧
      (w.toReplay.shared.now, Sample.endings w.toReplay,
        Sample.sentFlags w.toReplay) =
        (1_700_000_100_000_000, [some none], [true]) ∧
      w.calls.map Call.request =
        [.forwardRequest (Sample.payerRequest .other)] := by
    refine World.exists_run_of_replay
      (fun r => (r.shared.now, Sample.endings r, Sample.sentFlags r))
      (fun _ _ => true) (fun _ _ _ => trivial)
      ([.arrive (.forwardRequest (Sample.payerRequest .other))] ++
        Sample.advance 0 10) ?_
    simp only [List.map_append, List.map_cons, List.map_nil,
      Sample.withProgram_payer, Sample.map_advance]
    decide
  obtain ⟨w, run, hseen, hrequests⟩ := Sample.exists_run_payers
  obtain ⟨w', run', hseen', hrequests'⟩ := halone
  simp only [Sample.endings_toReplay, Sample.sentFlags_toReplay,
    Prod.mk.injEq] at hseen hseen'
  refine ⟨w, w', run, run', hseen.1.trans hseen'.1.symm, ?_, ?_,
    by decide, hseen.2.1, hseen'.2.1, hseen'.2.2⟩
  · rw [World.map_request (Request.authorization Sample.payers) hrequests]
    simp
  · rw [World.map_request (Request.authorization Sample.payers) hrequests']
    simp

end X402Guard
