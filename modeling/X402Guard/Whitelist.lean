/-
The contract whitelists: what an active AllowedContracts rule and a restricted
session key say about the address that a signed authorization pays.
-/
import X402Guard.ProxySystem

namespace X402Guard

variable {ext : Externals}

/-- The whitelists look at the recipient: either the caller names no contract
in the unsigned `extra`, or it is the `payTo` address up to letter case. -/
def RecipientChecked (ext : Externals) (requirements : PaymentRequirements) :
    Prop :=
  ∀ contract, targetContract requirements = some contract →
    ext.toLowercase contract = ext.toLowercase requirements.payTo

/-- Every rule list with an active whitelist that the payment passes lists the
recipient. -/
def RulesListRecipient (ext : Externals) (received : Received) : Prop :=
  ∀ (rules : List GuardrailRule) (dailySpent : Nat) (allowed : List String),
    (∃ rule ∈ rules, rule.isActive = true ∧
      rule.ruleType = .allowedContracts allowed) →
    evaluate ext rules received.verified received.requirements dailySpent =
      .ok () →
    ListedIn ext allowed received.requirements.payTo

/-- Every restricted session key that the payment passes lists the recipient. -/
def KeysListRecipient (ext : Externals) (received : Received) : Prop :=
  ∀ (now : Micros) (key : SessionKey), key.allowedContracts ≠ [] →
    verifySessionKey ext now key received.verified
      (targetContract received.requirements) = .ok () →
    ListedIn ext key.allowedContracts received.requirements.payTo

/-- Texts that agree up to letter case are listed together. -/
theorem ListedIn.congr {addresses : List String} {text text' : String}
    (h : ListedIn ext addresses text)
    (hcase : ext.toLowercase text = ext.toLowercase text') :
    ListedIn ext addresses text' := by
  obtain ⟨address, hmem, heq⟩ := h
  exact ⟨address, hmem, heq.trans hcase⟩

theorem listedIn_singleton {address text : String} :
    ListedIn ext [address] text ↔
      ext.toLowercase address = ext.toLowercase text := by
  simp [ListedIn]

/-- What a rule list that passes has looked up in each active whitelist. -/
theorem listed_of_evaluate {rules : List GuardrailRule}
    {payment : VerifiedPayment} {requirements : PaymentRequirements}
    {dailySpent : Nat} {allowed : List String}
    (hrule : ∃ rule ∈ rules, rule.isActive = true ∧
      rule.ruleType = .allowedContracts allowed)
    (h : evaluate ext rules payment requirements dailySpent = .ok ()) :
    ListedIn ext allowed
      ((targetContract requirements).getD requirements.payTo) := by
  obtain ⟨rule, hmem, hactive, htype⟩ := hrule
  have hsingle := (evaluate_eq_ok_iff ext).mp h rule hmem hactive
  rw [htype] at hsingle
  exact (checkAllowedContracts_eq_ok_iff ext).mp hsingle

/-- A whitelist rule of one address. -/
def whitelistRule (address : String) : GuardrailRule :=
  ⟨0, 0, .allowedContracts [address], true⟩

theorem evaluate_whitelistRule {payment : VerifiedPayment}
    {requirements : PaymentRequirements} {dailySpent : Nat}
    {contract : String} (h : targetContract requirements = some contract) :
    evaluate ext [whitelistRule contract] payment requirements dailySpent =
      .ok () := by
  rw [evaluate_eq_ok_iff]
  intro rule hmem _
  obtain rfl := List.mem_singleton.mp hmem
  apply (checkAllowedContracts_eq_ok_iff ext).mpr
  rw [h, Option.getD_some, listedIn_singleton]

/-- A fresh key of the largest limit, restricted to one address. -/
def restrictedKey (address : String) : SessionKey :=
  ⟨0, 0, "", u64Max, 0, [address], 1, false⟩

theorem verifySessionKey_restrictedKey {payment : VerifiedPayment}
    {contract : String} :
    verifySessionKey ext 0 (restrictedKey contract) payment (some contract) =
      .ok () := by
  rw [verifySessionKey_eq_ok_iff]
  refine ⟨rfl, Int.one_pos, Nat.min_le_right _ _, Or.inr ⟨contract, rfl, ?_⟩⟩
  exact listedIn_singleton.mpr rfl

/-- The rules list the recipient exactly when they look at it. -/
theorem rulesListRecipient_iff {received : Received} :
    RulesListRecipient ext received ↔
      RecipientChecked ext received.requirements := by
  constructor
  · intro h contract hcontract
    have hlisted := h [whitelistRule contract] 0 [contract]
      ⟨_, List.mem_singleton_self _, rfl, rfl⟩
      (evaluate_whitelistRule hcontract)
    exact listedIn_singleton.mp hlisted
  · intro h rules dailySpent allowed hrule hok
    have hlisted := listed_of_evaluate hrule hok
    cases hcontract : targetContract received.requirements with
    | none =>
        rwa [hcontract, Option.getD_none] at hlisted
    | some contract =>
        rw [hcontract, Option.getD_some] at hlisted
        exact hlisted.congr (h contract hcontract)

/-- The keys list the recipient exactly when they look at it. -/
theorem keysListRecipient_iff {received : Received} :
    KeysListRecipient ext received ↔
      RecipientChecked ext received.requirements := by
  constructor
  · intro h contract hcontract
    have hok : verifySessionKey ext 0 (restrictedKey contract)
        received.verified (targetContract received.requirements) = .ok () := by
      rw [hcontract]
      exact verifySessionKey_restrictedKey
    exact listedIn_singleton.mp (h 0 (restrictedKey contract)
      (List.cons_ne_nil _ _) hok)
  · intro h now key hrestricted hok
    obtain ⟨_, _, _, hlist⟩ := (verifySessionKey_eq_ok_iff ext).mp hok
    obtain ⟨contract, hcontract, hlisted⟩ :=
      hlist.resolve_left hrestricted
    exact hlisted.congr (h contract hcontract)

/-- The signed authorization pays the address that `payTo` denotes; that both
whitelists hold it to their list, whatever the list, comes down to where the
caller points them. -/
theorem whitelists_list_recipient_iff {req : ProxyRequest}
    {requirements : PaymentRequirements} {payment : PaymentPayload}
    {nowSecs : Nat} {received : Received}
    (h : verifyRequest ext req requirements payment nowSecs = .ok received) :
    ext.parseAddress received.requirements.payTo = some received.verified.to ∧
      (RulesListRecipient ext received ↔
        RecipientChecked ext received.requirements) ∧
      (KeysListRecipient ext received ↔
        RecipientChecked ext received.requirements) := by
  refine ⟨?_, rulesListRecipient_iff, keysListRecipient_iff⟩
  simp only [verifyRequest, except_bind_eq_ok] at h
  obtain ⟨verified, hverified, _, _, _, _, _, _, hreceived⟩ := h
  obtain rfl := Except.ok.inj hreceived
  exact (verifyPayment_valid ext hverified).payTo

namespace Sample

/-- The sample request while its authorization is valid, with an `extra`
object that points the whitelists at the token contract. -/
def diverted : Received :=
  { received .first true true with
    requirements := { requirements with
      extra := .object [("contract", .string usdcText)] } }

theorem verifyRequest_diverted :
    verifyRequest externals (request .first true true) diverted.requirements
      (payment .first) 1_700_000_100 = .ok diverted := by
  have hok := verifyRequest_sample .first true true
    (show 1_700_000_000 ≤ 1_700_000_100 by omega) (by omega)
  simp only [verifyRequest, except_bind_eq_ok] at hok ⊢
  obtain ⟨verified, hverified, agentId, hagent, keyId, hkey, amount, hamount,
    hreceived⟩ := hok
  refine ⟨verified, hverified, agentId, hagent, keyId, hkey, amount, hamount,
    ?_⟩
  cases hreceived
  rfl

theorem diverted_not_checked : ¬ RecipientChecked externals
    diverted.requirements := by
  intro h
  have heq : usdcText.toLower = serviceText.toLower := h usdcText rfl
  have hlower : ∀ text : String,
      text.toLower.toList = text.toList.map Char.toLower :=
    fun _ => String.toList_map
  have hlist := congrArg String.toList heq
  rw [hlower, hlower] at hlist
  exact absurd hlist (by decide)

end Sample

/-- A caller who names the listed token contract in `extra` gets a payment to
an unlisted address past either whitelist. -/
theorem whitelists_miss_recipient :
    (¬ ∀ received, verifyRequest Sample.externals
        (Sample.request .first true true) Sample.diverted.requirements
        (Sample.payment .first) 1_700_000_100 = .ok received →
      RulesListRecipient Sample.externals received) ∧
    ¬ ∀ received, verifyRequest Sample.externals
        (Sample.request .first true true) Sample.diverted.requirements
        (Sample.payment .first) 1_700_000_100 = .ok received →
      KeysListRecipient Sample.externals received := by
  constructor
  · intro h
    exact Sample.diverted_not_checked
      (rulesListRecipient_iff.mp (h _ Sample.verifyRequest_diverted))
  · intro h
    exact Sample.diverted_not_checked
      (keysListRecipient_iff.mp (h _ Sample.verifyRequest_diverted))

/-- The payment of a caller who names no contract. -/
theorem whitelists_list_recipient_sample :
    verifyRequest Sample.externals (Sample.request .first true true)
      Sample.requirements (Sample.payment .first) 1_700_000_100 =
        .ok (Sample.received .first true true) ∧
      RulesListRecipient Sample.externals
        (Sample.received .first true true) := by
  have hok := Sample.verifyRequest_sample .first true true
    (show 1_700_000_000 ≤ 1_700_000_100 by omega) (by omega)
  refine ⟨hok, (whitelists_list_recipient_iff hok).2.1.mpr ?_⟩
  intro contract hcontract
  cases hcontract

end X402Guard
