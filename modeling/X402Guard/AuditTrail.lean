/-
What one forwarded request reports to the audit log.  The guardrails step emits
the violation it raises and the last step emits the answer of the target; the
other ways to block a payment, and to spend without an answer, emit nothing.
-/
import X402Guard.ForwardEnding
import X402Guard.HandlerErrors

namespace X402Guard

open Interaction Prog

variable {ext : Externals} {config : AppConfig}

def AppError.IsViolation : AppError → Prop
  | .guardrailViolation _ => True
  | _ => False

/-- The computation raises no guardrail violation. -/
def RaisesNone {α : Type} (result : Except AppError α) : Prop :=
  ∀ error, result = .error error → ¬ error.IsViolation

/-- The step ends with no guardrail violation. -/
abbrev Unviolated {α : Type} (p : Handler α) : Prop :=
  p.Fails fun error => ¬ error.IsViolation

theorem receivePayment_unviolated (req : ProxyRequest) :
    Unviolated (receivePayment ext req) :=
  receivePayment_fails (fun _ => id) (fun _ => id) req

theorem checkNonce_unviolated (received : Received) :
    Unviolated (checkNonce received) :=
  checkNonce_fails (fun _ => id) (fun _ => id) received

theorem checkRateLimit_unviolated : Unviolated (checkRateLimit config) :=
  checkRateLimit_fails (fun _ => id) id

/-- An audit event of one of the types was emitted. -/
def emitted (types : AuditEventType → Bool) : Event Op Reply → Bool
  | ⟨.emit event, _, _, _⟩ => types event.eventType
  | _ => false

/-- The events that report a blocked payment. -/
def reportsViolation (eventType : AuditEventType) : Bool :=
  eventType = .guardrailViolation

/-- The events that report what became of a payment. -/
def reportsOutcome (eventType : AuditEventType) : Bool :=
  eventType = .proxyRequestForwarded || eventType = .proxyRequestFailed ||
    eventType = .guardrailViolation

/-- An operation that reports no outcome. -/
def Op.Quiet (op : Op) : Prop :=
  ∀ event, op = .emit event → event.eventType = .proxyRequestReceived

theorem Op.Quiet.of_ne {op : Op} (h : ∀ event, op ≠ .emit event) :
    op.Quiet :=
  fun event heq => absurd heq (h event)

theorem emitted_eq_false {types : AuditEventType → Bool}
    {event : Event Op Reply} (htypes : types .proxyRequestReceived = false)
    (h : event.op.Quiet) : emitted types event = false := by
  unfold emitted
  split
  · rw [h _ rfl]
    exact htypes
  · rfl

theorem countP_emitted_eq_zero {types : AuditEventType → Bool}
    {trace : List (Event Op Reply)}
    (htypes : types .proxyRequestReceived = false)
    (h : ∀ event ∈ trace, event.op.Quiet) :
    trace.countP (emitted types) = 0 := by
  rw [List.countP_eq_zero]
  intro event hevent
  rw [emitted_eq_false htypes (h event hevent)]
  exact Bool.false_ne_true

theorem receivePayment_quiet (req : ProxyRequest) :
    (receivePayment ext req).Within Op.Quiet := by
  apply receivePayment_ops
  · intro event heq
    cases heq
    rfl
  · exact .of_ne fun _ heq => by cases heq

theorem checkSessionKey_quiet (received : Received) :
    (checkSessionKey ext received).Within Op.Quiet :=
  checkSessionKey_ops received (fun _ => .of_ne fun _ heq => by cases heq)
    (.of_ne fun _ heq => by cases heq)

theorem checkNonce_quiet (received : Received) :
    (checkNonce received).Within Op.Quiet :=
  checkNonce_ops received (.of_ne fun _ heq => by cases heq)
    fun _ => .of_ne fun _ heq => by cases heq

theorem checkRateLimit_quiet : (checkRateLimit config).Within Op.Quiet :=
  checkRateLimit_ops (.of_ne fun _ heq => by cases heq)
    (.of_ne fun _ heq => by cases heq) (.of_ne fun _ heq => by cases heq)
    (fun _ _ _ _ _ => .of_ne fun _ heq => by cases heq)
    fun _ _ => .of_ne fun _ heq => by cases heq

theorem reserveSpend_quiet (received : Received)
    (agentRules : Option (List GuardrailRule)) :
    (reserveSpend received agentRules).Within Op.Quiet :=
  reserveSpend_ops received agentRules (.of_ne fun _ heq => by cases heq)
    (fun _ _ _ _ => .of_ne fun _ heq => by cases heq)
    fun _ _ => .of_ne fun _ heq => by cases heq

/-- The step ends without a report and without a violation, or it reports one
violation and fails. -/
def ReportsViolations {α : Type} (p : Handler α) : Prop :=
  ∀ trace result, p.Reaches trace (lift result) →
    (trace.countP (emitted reportsOutcome) = 0 ∧ RaisesNone result) ∨
      (trace.countP (emitted reportsViolation) = 1 ∧
        ∃ error, result = .error error)

theorem reportsViolations_ret {α : Type} (value : α) :
    ReportsViolations (.ret value : Handler α) := by
  intro trace result h
  rw [← lift_ok, reaches_lift_lift_iff] at h
  obtain ⟨rfl, rfl⟩ := h
  exact Or.inl ⟨rfl, raises_ok value⟩

/-- A step before it that is quiet and raises none changes nothing of this. -/
theorem ReportsViolations.bind {α β : Type} {p : Handler α}
    {f : α → Handler β} (hquiet : p.Within Op.Quiet) (hp : Unviolated p)
    (hf : ∀ value, ReportsViolations (f value)) :
    ReportsViolations (p >>= f) := by
  intro trace result h
  rcases reaches_bind_lift_iff.mp h with
    ⟨error, hfails, rfl⟩ | ⟨value, first, second, rfl, hfirst, hsecond⟩
  · left
    exact ⟨countP_emitted_eq_zero rfl (hquiet.of_mem hfails),
      raises_error (hp.of_reaches hfails)⟩
  · rw [List.countP_append, List.countP_append,
      countP_emitted_eq_zero rfl (hquiet.of_mem hfirst),
      countP_emitted_eq_zero rfl (hquiet.of_mem hfirst), Nat.zero_add,
      Nat.zero_add]
    exact hf value second result hsecond

/-- Whatever the guardrails say, a violation they raise is reported once. -/
theorem checkGuardrails_reportsViolations (req : ProxyRequest)
    (received : Received) :
    ReportsViolations (checkGuardrails ext req received) := by
  have hquery : ∀ {q : Query} {α : Type} {f : q.Answer → Except String α},
      ((Repo.query q >>= fun answer => .lift (f answer)).mapError
        AppError.internal).Within Op.Quiet := by
    intro q α f
    refine within_mapError.mpr (Within.bind (Repo.query_within ?_)
      fun _ => within_lift _ _)
    exact .of_ne fun _ heq => by cases heq
  unfold checkGuardrails
  split
  · exact reportsViolations_ret none
  · refine ReportsViolations.bind (within_mapError.mpr (Repo.query_within
      (.of_ne fun _ heq => by cases heq))) (fails_mapError fun _ => id)
      fun found => ?_
    refine ReportsViolations.bind (within_lift _ _)
      (fails_lift (raises_okOr id)) fun agent => ?_
    refine ReportsViolations.bind (within_lift _ _)
      (fails_lift (raises_rejectIf id)) fun _ => ?_
    refine ReportsViolations.bind hquery (fails_mapError fun _ => id)
      fun rules => ?_
    refine ReportsViolations.bind hquery (fails_mapError fun _ => id)
      fun dailySpent => ?_
    split
    · exact reportsViolations_ret _
    · rename_i violation _
      intro trace result h
      rcases reaches_bind_lift_iff.mp h with
        ⟨error, hfails, rfl⟩ | ⟨_, first, second, rfl, hemit, hthrow⟩
      · exact (emit_fails (P := fun _ => False) |>.of_reaches hfails).elim
      · rw [← lift_error, reaches_lift_lift_iff] at hthrow
        obtain ⟨rfl, rfl⟩ := hthrow
        rw [emit, reaches_bind_ret_iff] at hemit
        obtain ⟨_, _, reply, rfl, hperform, hret⟩ := hemit
        obtain ⟨order, time, rfl⟩ := reaches_perform_ret_iff.mp hperform
        obtain ⟨rfl, _⟩ := reaches_ret_iff.mp hret
        exact Or.inr ⟨rfl, violation, rfl⟩

/-- The first reading of the clock. -/
def firstClock : List (Event Op Reply) → Option Micros
  | [] => none
  | ⟨.clock, now, _, _⟩ :: _ => some now
  | _ :: rest => firstClock rest

/-- The session key that was read, and the time it was checked at. -/
def keyChecked : List (Event Op Reply) → Option (SessionKeyRow × Micros)
  | [] => none
  | ⟨.postgres (.selectSessionKey _), .ok (some row), _, _⟩ :: rest =>
      (firstClock rest).map fun now => (row, now)
  | _ :: rest => keyChecked rest

theorem keyChecked_cons {event : Event Op Reply} {rest : List (Event Op Reply)}
    (h : event.op.stage ≠ 6) :
    keyChecked (event :: rest) = keyChecked rest := by
  obtain ⟨op, reply, order, time⟩ := event
  cases op with
  | postgres query =>
      cases query with
      | selectSessionKey id => exact absurd rfl h
      | _ => rfl
  | _ => rfl

theorem keyChecked_append {first second : List (Event Op Reply)}
    (h : ∀ event ∈ first, event.op.stage ≠ 6) :
    keyChecked (first ++ second) = keyChecked second := by
  induction first with
  | nil => rfl
  | cons event rest ih =>
      rw [List.cons_append, keyChecked_cons (h event List.mem_cons_self)]
      exact ih fun e he => h e (List.mem_cons_of_mem event he)

theorem keyChecked_eq_none {trace : List (Event Op Reply)}
    (h : ∀ event ∈ trace, event.op.stage ≠ 6) : keyChecked trace = none := by
  have hnone : keyChecked (trace ++ []) = keyChecked [] := keyChecked_append h
  rwa [List.append_nil] at hnone

/-- The key passes the checks before that of its limit, and the payment is over
the limit. -/
def SessionKey.OverLimit (key : SessionKey) (now : Micros) (amount : Nat) :
    Prop :=
  key.isRevoked = false ∧ (now : Int) < key.expiresAt ∧
    key.maxSpend < u64SaturatingAdd key.spent amount

/-- The session key that is read is over its limit with the payment. -/
def KeyOverLimit (ext : Externals) (req : ProxyRequest)
    (trace : List (Event Op Reply)) : Prop :=
  ∃ row now key, keyChecked trace = some (row, now) ∧
    rowToSessionKey row = .ok key ∧ key.OverLimit now (req.amount ext)

theorem verifySessionKey_isViolation_iff {now : Micros} {key : SessionKey}
    {payment : VerifiedPayment} {target : Option String} {error : AppError}
    (h : verifySessionKey ext now key payment target = .error error) :
    error.IsViolation ↔
      key.OverLimit now ((u64OfU256 payment.value).getD u64Max) := by
  unfold verifySessionKey rejectIf at h
  unfold SessionKey.OverLimit
  by_cases hrevoked : key.isRevoked = true
  · simp only [hrevoked, ↓reduceIte] at h
    cases h
    simp [AppError.IsViolation, hrevoked]
  · by_cases hexpired : (now : Int) ≥ key.expiresAt
    · simp only [hrevoked, hexpired, ↓reduceIte] at h
      cases h
      simp [AppError.IsViolation, Int.not_lt.mpr hexpired]
    · by_cases hlimit : u64SaturatingAdd key.spent
          ((u64OfU256 payment.value).getD u64Max) > key.maxSpend
      · simp only [hrevoked, hexpired, hlimit, ↓reduceIte] at h
        cases h
        simp [AppError.IsViolation, hrevoked, Int.not_le.mp hexpired, hlimit]
      · have hnot : ¬ error.IsViolation := by
          simp only [hrevoked, hexpired, hlimit, ↓reduceIte,
            Bool.false_eq_true, bind, Except.bind] at h
          split at h
          · cases target with
            | none =>
                cases h
                exact id
            | some contract =>
                exact raises_rejectIf (P := fun error => ¬ error.IsViolation)
                  id error h
          · cases h
        simp [hnot, hlimit]

theorem verifySessionKey_raisesNone_iff {now : Micros} {key : SessionKey}
    {payment : VerifiedPayment} {target : Option String} :
    RaisesNone (verifySessionKey ext now key payment target) ↔
      ¬ key.OverLimit now ((u64OfU256 payment.value).getD u64Max) := by
  cases hverify : verifySessionKey ext now key payment target with
  | error error =>
      rw [← verifySessionKey_isViolation_iff hverify]
      constructor
      · intro h
        exact h error rfl
      · exact raises_error (P := fun error : AppError => ¬ error.IsViolation)
  | ok value =>
      have hwithin := ((verifySessionKey_eq_ok_iff ext).mp hverify).2.2.1
      have hnot : ¬ key.OverLimit now
          ((u64OfU256 payment.value).getD u64Max) :=
        fun hover => Nat.not_lt.mpr hwithin hover.2.2
      exact ⟨fun _ => hnot, fun _ => raises_ok value⟩

/-- How the lookup of a session key ends. -/
theorem findSessionKey_ends {keyId : Uuid} {trace : List (Event Op Reply)}
    {result : Except String (Option SessionKey)}
    (h : (Repo.SessionKeys.findById keyId).Reaches trace (lift result)) :
    ∃ (reply : Except DbError (Option SessionKeyRow)) (order time : Nat),
      trace = [⟨.postgres (.selectSessionKey keyId), reply, order, time⟩] ∧
      ∀ key, result = .ok (some key) →
        ∃ row, reply = .ok (some row) ∧ rowToSessionKey row = .ok key := by
  rcases reaches_bind_lift_iff.mp h with
    ⟨cause, hquery, rfl⟩ | ⟨row?, first, second, rfl, hquery, hrow⟩
  · obtain ⟨error, order, time, rfl, _⟩ :=
      Repo.query_reaches_throw_iff.mp hquery
    exact ⟨.error error, order, time, rfl, fun key heq => by cases heq⟩
  · obtain ⟨order, time, rfl⟩ := Repo.query_reaches_ret_iff.mp hquery
    cases row? with
    | none =>
        rw [pure_eq_ret, ← lift_ok, reaches_lift_lift_iff] at hrow
        obtain ⟨rfl, rfl⟩ := hrow
        exact ⟨.ok none, order, time, rfl, fun key heq => by cases heq⟩
    | some row =>
        rcases reaches_bind_lift_iff.mp hrow with
          ⟨cause, hdecode, rfl⟩ | ⟨key, third, fourth, rfl, hdecode, hret⟩
        · obtain ⟨rfl, _⟩ := reaches_lift_throw_iff.mp hdecode
          exact ⟨.ok (some row), order, time, rfl, fun key heq => by cases heq⟩
        · obtain ⟨rfl, hdecoded⟩ := reaches_lift_ret_iff.mp hdecode
          rw [pure_eq_ret, ← lift_ok, reaches_lift_lift_iff] at hret
          obtain ⟨rfl, rfl⟩ := hret
          refine ⟨.ok (some row), order, time, rfl, ?_⟩
          intro key' heq
          cases heq
          exact ⟨row, rfl, hdecoded⟩

/-- The session key step ends before it checks a key, or as the check of the
key that was read. -/
theorem checkSessionKey_ends {received : Received}
    {trace : List (Event Op Reply)} {result : Except AppError Unit}
    (h : (checkSessionKey ext received).Reaches trace (lift result)) :
    (RaisesNone result ∧ keyChecked trace = none ∧
        (result = .ok () → trace = [])) ∨
      ∃ keyId row now key order₁ time₁ order₂ time₂,
        trace = [⟨.postgres (.selectSessionKey keyId), .ok (some row), order₁,
          time₁⟩, ⟨.clock, now, order₂, time₂⟩] ∧
        rowToSessionKey row = .ok key ∧
        result = verifySessionKey ext now key received.verified
          (targetContract received.requirements) := by
  unfold checkSessionKey at h
  rcases Option.eq_none_or_eq_some received.sessionKeyId with
    hkey | ⟨keyId, hkey⟩
  · simp only [hkey] at h
    rw [pure_eq_ret, ← lift_ok, reaches_lift_lift_iff] at h
    obtain ⟨rfl, rfl⟩ := h
    exact Or.inl ⟨raises_ok (), rfl, fun _ => rfl⟩
  simp only [hkey] at h
  rcases reaches_bind_lift_iff.mp h with
    ⟨error, hfind, rfl⟩ | ⟨found, first, rest, rfl, hfind, hrest⟩
  · obtain ⟨cause, hlookup, rfl⟩ := reaches_mapError_throw_iff.mp hfind
    rw [← lift_error] at hlookup
    obtain ⟨reply, order, time, rfl, _⟩ := findSessionKey_ends hlookup
    refine Or.inl ⟨raises_error id, ?_, fun heq => by cases heq⟩
    rcases reply with _ | _ | _ <;> rfl
  rw [reaches_mapError_ret_iff, ← lift_ok] at hfind
  obtain ⟨reply, order, time, rfl, hfound⟩ := findSessionKey_ends hfind
  rcases reaches_bind_lift_iff.mp hrest with
    ⟨error, hmissing, rfl⟩ | ⟨key, second, last, rfl, hpresent, hcheck⟩
  · obtain ⟨rfl, heq⟩ := reaches_lift_throw_iff.mp hmissing
    have hnone : RaisesNone (okOr (.notFound
        s!"session key {formatUuid keyId} not found") found) :=
      raises_okOr id
    refine Or.inl ⟨raises_error (hnone error heq), ?_,
      fun heq => by cases heq⟩
    rcases reply with _ | _ | _ <;> rfl
  · rw [reaches_lift_ret_iff, okOr_eq_ok_iff] at hpresent
    obtain ⟨rfl, rfl⟩ := hpresent
    obtain ⟨row, rfl, hrow⟩ := hfound key rfl
    rw [perform_bind, reaches_call_iff] at hcheck
    rcases hcheck with ⟨_, heq⟩ | ⟨now, order', time', tail, rfl, hverify⟩
    · cases result <;> cases heq
    · rw [reaches_lift_lift_iff] at hverify
      obtain ⟨rfl, rfl⟩ := hverify
      exact Or.inr ⟨keyId, row, now, key, order, time, order', time', rfl,
        hrow, rfl⟩

/-- The amount that is checked against the key is the amount of the payment. -/
theorem Received.Valid.checkedAmount {req : ProxyRequest}
    {received : Received} (h : received.Valid ext req) :
    (u64OfU256 received.verified.value).getD u64Max = req.amount ext := by
  rw [← h.names.2.2.1]
  obtain ⟨payment, nowSecs, _, hverify⟩ := h.verified
  simp only [verifyRequest, except_bind_eq_ok, okOr_eq_ok_iff, pure,
    Except.pure, Except.ok.injEq] at hverify
  obtain ⟨verified, _, agentId, _, sessionKeyId, _, amount, hamount, heq⟩ :=
    hverify
  rw [← heq, hamount]
  rfl

/-- The step raises a violation exactly when the key is over its limit. -/
theorem checkSessionKey_raisesNone_iff {req : ProxyRequest}
    {received : Received} {trace : List (Event Op Reply)}
    {result : Except AppError Unit} (hvalid : received.Valid ext req)
    (h : (checkSessionKey ext received).Reaches trace (lift result)) :
    RaisesNone result ↔ ¬ KeyOverLimit ext req trace := by
  rcases checkSessionKey_ends h with ⟨hnone, hchecked, _⟩ |
    ⟨keyId, row, now, key, order₁, time₁, order₂, time₂, rfl, hrow, rfl⟩
  · apply iff_of_true hnone
    rintro ⟨row, now, key, hsome, _⟩
    rw [hchecked] at hsome
    cases hsome
  · rw [verifySessionKey_raisesNone_iff, hvalid.checkedAmount]
    apply not_congr
    constructor
    · intro hover
      exact ⟨row, now, key, rfl, hrow, hover⟩
    · rintro ⟨row', now', key', hsome, hrow', hover⟩
      cases hsome
      rw [hrow] at hrow'
      cases hrow'
      exact hover

/-- What is read of the key depends on the session key step alone. -/
theorem keyOverLimit_append_iff {req : ProxyRequest} {received : Received}
    {first second rest : List (Event Op Reply)}
    {result : Except AppError Unit}
    (hfirst : ∀ event ∈ first, event.op.stage ≠ 6)
    (hkey : (checkSessionKey ext received).Reaches second (lift result))
    (hrest : ∀ event ∈ rest, event.op.stage ≠ 6)
    (hpassed : rest ≠ [] → result = .ok ()) :
    KeyOverLimit ext req (first ++ (second ++ rest)) ↔
      KeyOverLimit ext req second := by
  have hsame : keyChecked (first ++ (second ++ rest)) = keyChecked second := by
    rw [keyChecked_append hfirst]
    by_cases hempty : rest = []
    · rw [hempty, List.append_nil]
    · rcases checkSessionKey_ends hkey with ⟨_, _, hnil⟩ |
        ⟨keyId, row, now, key, order₁, time₁, order₂, time₂, rfl, _, _⟩
      · rw [hnil (hpassed hempty)]
        exact keyChecked_eq_none hrest
      · rfl
  unfold KeyOverLimit
  rw [hsame]

end X402Guard
