/-
The errors that each step of a forwarded request can end with: a property of
errors holds of all of them once it holds of the kinds that the step raises.
-/
import X402Guard.ForwardRequest

namespace X402Guard

open Interaction Prog

variable {ext : Externals} {config : AppConfig}

section Errors

variable {ε : Type} {P : ε → Prop}

/-- Every error the computation raises satisfies `P`. -/
def Raises (P : ε → Prop) {α : Type} (result : Except ε α) : Prop :=
  ∀ error, result = .error error → P error

theorem raises_ok {α : Type} (value : α) :
    Raises P (.ok value : Except ε α) := by
  intro error heq
  cases heq

theorem raises_error {α : Type} {error : ε} (h : P error) :
    Raises P (.error error : Except ε α) := by
  intro error' heq
  cases heq
  exact h

theorem Raises.bind {α β : Type} {x : Except ε α} {f : α → Except ε β}
    (hx : Raises P x) (hf : ∀ value, Raises P (f value)) :
    Raises P (x >>= f) := by
  cases x with
  | error error =>
      intro error' heq
      cases heq
      exact hx error rfl
  | ok value => exact hf value

theorem raises_rejectIf {condition : Prop} [Decidable condition]
    {error : ε} (h : P error) : Raises P (rejectIf condition error) := by
  unfold rejectIf
  split
  · exact raises_error h
  · exact raises_ok ()

theorem raises_okOr {α : Type} {value? : Option α} {error : ε}
    (h : P error) : Raises P (okOr error value?) := by
  cases value? with
  | none => exact raises_error h
  | some value => exact raises_ok value

theorem raises_mapError {ε' α : Type} {f : ε' → ε} {x : Except ε' α}
    (h : ∀ error, P (f error)) : Raises P (x.mapError f) := by
  cases x with
  | error error => exact raises_error (h error)
  | ok value => exact raises_ok value

theorem raises_mapM {α β : Type} {f : α → Except ε β}
    (hf : ∀ value, Raises P (f value)) (values : List α) :
    Raises P (values.mapM f) := by
  induction values with
  | nil => exact raises_ok []
  | cons value values ih =>
      rw [List.mapM_cons]
      exact (hf value).bind fun _ => ih.bind fun _ => raises_ok _

end Errors

variable {P : AppError → Prop}

section Receive

variable (hbad : ∀ message, P (.badRequest message))
include hbad

theorem validateTargetUrl_raises (url : String) :
    Raises P (validateTargetUrl ext url) := by
  refine (raises_rejectIf (hbad _)).bind fun _ => ?_
  refine (raises_okOr (hbad _)).bind fun parsed => ?_
  refine (raises_rejectIf (hbad _)).bind fun _ => ?_
  refine (raises_rejectIf (hbad _)).bind fun _ => ?_
  refine (raises_okOr (hbad _)).bind fun host => ?_
  refine (raises_rejectIf (hbad _)).bind fun _ => ?_
  exact raises_rejectIf (hbad _)

theorem validateResourceMatch_raises (targetUrl resource : String) :
    Raises P (validateResourceMatch ext targetUrl resource) := by
  refine (raises_okOr (hbad _)).bind fun target => ?_
  refine (raises_okOr (hbad _)).bind fun resourceUrl => ?_
  refine (raises_rejectIf (hbad _)).bind fun _ => ?_
  exact raises_rejectIf (hbad _)

theorem validateAssetMatch_raises (payment : PaymentPayload)
    (requirements : PaymentRequirements) :
    Raises P (validateAssetMatch ext payment requirements) := by
  refine (raises_okOr (hbad _)).bind fun expected => ?_
  exact raises_rejectIf (hbad _)

theorem parseOptionalId_raises (message : String) (text? : Option String) :
    Raises P (parseOptionalId ext message text?) := by
  cases text? with
  | none => exact raises_ok none
  | some text =>
      intro error heq
      cases hparse : ext.parseUuid text with
      | none =>
          simp only [parseOptionalId, hparse, okOr, Except.map] at heq
          cases heq
          exact hbad message
      | some id => simp [parseOptionalId, hparse, okOr, Except.map] at heq

variable (hunauthorized : ∀ message, P (.unauthorized message))
include hunauthorized

theorem verifyPayment_raises (requirements : PaymentRequirements)
    (payment : PaymentPayload) (nowSecs : Nat) :
    Raises P (verifyPayment ext requirements payment nowSecs) := by
  refine (raises_rejectIf (hbad _)).bind fun _ => ?_
  refine (raises_rejectIf (hbad _)).bind fun _ => ?_
  refine (raises_okOr (hbad _)).bind fun network => ?_
  refine (raises_okOr (hbad _)).bind fun sender => ?_
  refine (raises_okOr (hbad _)).bind fun recipient => ?_
  refine (raises_okOr (hbad _)).bind fun payTo => ?_
  refine (raises_rejectIf (hbad _)).bind fun _ => ?_
  refine (raises_okOr (hbad _)).bind fun value => ?_
  refine (raises_okOr (hbad _)).bind fun requiredAmount => ?_
  refine (raises_okOr (hbad _)).bind fun validAfter => ?_
  refine (raises_okOr (hbad _)).bind fun validBefore => ?_
  refine (raises_mapError fun _ => hbad _).bind fun nonce => ?_
  refine (raises_mapError fun _ => hbad _).bind fun sigBytes => ?_
  refine (raises_okOr (hbad _)).bind fun signature => ?_
  refine (raises_okOr (hunauthorized _)).bind fun recovered => ?_
  refine (raises_rejectIf (hunauthorized _)).bind fun _ => ?_
  refine (raises_rejectIf (hbad _)).bind fun _ => ?_
  refine (raises_rejectIf (hbad _)).bind fun _ => ?_
  refine (raises_rejectIf (hbad _)).bind fun _ => ?_
  refine (raises_rejectIf (hunauthorized _)).bind fun _ => ?_
  exact raises_ok _

theorem verifyRequest_raises (req : ProxyRequest)
    (requirements : PaymentRequirements) (payment : PaymentPayload)
    (nowSecs : Nat) :
    Raises P (verifyRequest ext req requirements payment nowSecs) := by
  refine (verifyPayment_raises hbad hunauthorized _ _ _).bind
    fun verified => ?_
  refine (parseOptionalId_raises hbad _ _).bind fun agentId => ?_
  refine (parseOptionalId_raises hbad _ _).bind fun sessionKeyId => ?_
  refine (raises_okOr (hbad _)).bind fun paymentAmount => ?_
  exact raises_ok _

/-- Steps 1 to 5. -/
theorem receivePayment_fails (req : ProxyRequest) :
    (receivePayment ext req).Fails P := by
  refine (fails_lift (validateTargetUrl_raises hbad _)).bind fun _ => ?_
  refine Fails.bind (fun _ => trivial) fun _ => ?_
  refine (fails_lift (raises_mapError fun _ => hbad _)).bind
    fun requirements => ?_
  refine (fails_lift (raises_mapError fun _ => hbad _)).bind
    fun payment => ?_
  refine (fails_lift (validateResourceMatch_raises hbad _ _)).bind
    fun _ => ?_
  refine (fails_lift (validateAssetMatch_raises hbad _ _)).bind
    fun _ => ?_
  refine Fails.bind (fun _ => trivial) fun now => ?_
  exact fails_lift (verifyRequest_raises hbad hunauthorized _ _ _ _)

end Receive

section Rules

variable (hviolation : ∀ message, P (.guardrailViolation message))
include hviolation

theorem evaluateSingle_raises (rule : RuleType) (payment : VerifiedPayment)
    (requirements : PaymentRequirements) (dailySpent : Nat) :
    Raises P (evaluateSingle ext rule payment requirements dailySpent) := by
  have hextra : ∀ field name invalid unit max,
      Raises P (checkExtraBound requirements field name invalid unit max) := by
    intro field name invalid unit max
    unfold checkExtraBound
    split
    · exact raises_ok ()
    · exact (raises_okOr (hviolation _)).bind fun _ =>
        raises_rejectIf (hviolation _)
  cases rule with
  | maxSpendPerTx limit => exact raises_rejectIf (hviolation _)
  | maxSpendPerDay limit => exact raises_rejectIf (hviolation _)
  | allowedContracts addresses =>
      exact (raises_rejectIf (hviolation _)).bind fun _ =>
        raises_rejectIf (hviolation _)
  | maxLeverage max => exact hextra _ _ _ _ _
  | maxSlippage bps => exact hextra _ _ _ _ _

theorem evaluate_raises (rules : List GuardrailRule)
    (payment : VerifiedPayment) (requirements : PaymentRequirements)
    (dailySpent : Nat) :
    Raises P (evaluate ext rules payment requirements dailySpent) := by
  induction rules with
  | nil => exact raises_ok ()
  | cons rule rest ih =>
      unfold evaluate
      split
      · exact (evaluateSingle_raises hviolation _ _ _ _).bind fun _ => ih
      · exact ih

theorem verifySessionKey_raises (hforbidden : ∀ message, P (.forbidden message))
    (now : Micros) (key : SessionKey) (payment : VerifiedPayment)
    (target : Option String) :
    Raises P (verifySessionKey ext now key payment target) := by
  refine (raises_rejectIf (hforbidden _)).bind fun _ => ?_
  refine (raises_rejectIf (hforbidden _)).bind fun _ => ?_
  refine (raises_rejectIf (hviolation _)).bind fun _ => ?_
  split
  · cases target with
    | none => exact raises_error (hforbidden _)
    | some contract => exact raises_rejectIf (hforbidden _)
  · exact raises_ok ()

end Rules

theorem emit_fails {event : AuditEvent} : (emit event).Fails P :=
  fun _ => trivial

theorem checkSessionKey_fails (hinternal : ∀ cause, P (.internal cause))
    (hnotFound : ∀ message, P (.notFound message))
    (hforbidden : ∀ message, P (.forbidden message))
    (hviolation : ∀ message, P (.guardrailViolation message))
    (received : Received) : (checkSessionKey ext received).Fails P := by
  unfold checkSessionKey
  split
  · trivial
  · refine (fails_mapError hinternal).bind fun _ => ?_
    refine (fails_lift (raises_okOr (hnotFound _))).bind fun _ => ?_
    refine Fails.bind (fun _ => trivial) fun _ => ?_
    exact fails_lift (verifySessionKey_raises hviolation hforbidden _ _ _ _)

theorem checkGuardrails_fails (hinternal : ∀ cause, P (.internal cause))
    (hnotFound : ∀ message, P (.notFound message))
    (hforbidden : ∀ message, P (.forbidden message))
    (hviolation : ∀ message, P (.guardrailViolation message))
    (req : ProxyRequest) (received : Received) :
    (checkGuardrails ext req received).Fails P := by
  unfold checkGuardrails
  split
  · trivial
  · refine (fails_mapError hinternal).bind fun _ => ?_
    refine (fails_lift (raises_okOr (hnotFound _))).bind fun _ => ?_
    refine (fails_lift (raises_rejectIf (hforbidden _))).bind fun _ => ?_
    refine (fails_mapError hinternal).bind fun rules => ?_
    refine (fails_mapError hinternal).bind fun dailySpent => ?_
    split
    · trivial
    · rename_i violation heq
      exact emit_fails.bind fun _ =>
        evaluate_raises hviolation _ _ _ _ violation heq

theorem checkNonce_fails (hinternal : ∀ cause, P (.internal cause))
    (hbad : ∀ message, P (.badRequest message)) (received : Received) :
    (checkNonce received).Fails P :=
  (fails_mapError hinternal).bind fun _ =>
    fails_lift (raises_rejectIf (hbad _))

theorem checkRateLimit_fails (hinternal : ∀ cause, P (.internal cause))
    (hlimited : P .rateLimited) : (checkRateLimit config).Fails P :=
  (fails_mapError hinternal).bind fun _ =>
    fails_lift (raises_rejectIf hlimited)

theorem reserveSpend_fails (hinternal : ∀ cause, P (.internal cause))
    (hviolation : ∀ message, P (.guardrailViolation message))
    (received : Received) (agentRules : Option (List GuardrailRule)) :
    (reserveSpend received agentRules).Fails P := by
  unfold reserveSpend
  split
  · trivial
  · refine (fails_mapError hinternal).bind fun _ => ?_
    refine (fails_lift (raises_rejectIf (hviolation _))).bind fun _ => ?_
    split
    · trivial
    · exact fails_mapError fun _ => hviolation _

theorem forwardToTarget_fails (hinternal : ∀ cause, P (.internal cause))
    (req : ProxyRequest) (received : Received) :
    (forwardToTarget ext req received).Fails P := by
  refine (fails_lift (raises_rejectIf (hinternal _))).bind fun _ => ?_
  refine Fails.bind (fun _ => trivial) fun reply => ?_
  cases reply with
  | notSent cause => exact hinternal _
  | noResponse cause => exact hinternal _
  | response status body =>
      unfold concludeForward
      simp only
      split <;> exact emit_fails.bind fun _ => trivial

end X402Guard
